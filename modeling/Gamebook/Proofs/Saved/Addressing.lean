/-
# Cells stand where they belong

A cell is stored under the identifier of its name, so it is found there and nowhere
else, and storing it touches no other identifier.

Data that is loaded may hold cells anywhere.  Its entries are taken in the order of
their names, and names of different letter case may write one identifier: the entry
whose name comes last stays (`Survives`), and what it replaces is forgotten before
anything is checked.  The data is accepted exactly if every entry that stays is under
the identifier of its cell; if not, the first that is not, in the order of identifiers,
is reported.

Main statement: `loadStory_addressed`.
-/
import Gamebook.Proofs.Saved.RoundTrip

namespace Gamebook

/-! ## Storing -/

/-- Storing a cell answers what it replaces, and is seen under its identifier alone. -/
theorem Story.putCell_spec (story : Story) (cell : Cell) :
    (story.putCell cell).1 = story.cell? cell.id ∧
      (story.putCell cell).2.cell? cell.id = some cell ∧
      ∀ id, id ≠ cell.id → (story.putCell cell).2.cell? id = story.cell? id := by
  have hfind : ∀ id, (story.putCell cell).2.cell? id =
      if cell.id = id then some cell else story.cell? id := story.cell?_insertCell cell
  refine ⟨rfl, ?_, fun id hne => ?_⟩
  · rw [hfind, if_pos rfl]
  · rw [hfind, if_neg hne.symm]

namespace Saved

/-! ## Story data -/

/-- What story data holds in the four places that a story is read from. -/
structure StoryData where
  title : Json
  cells : Json
  items : Json
  compiledAt : Json

/-- The places are the names of an object, where the last value of a name counts, or the order of a
list. -/
def StoryData.of? : Json → Option StoryData
  | .obj fields => do
      let value := Json.obj fields
      return ⟨← value.field? "title", ← value.field? "cells", ← value.field? "items",
        ← value.field? "compiled_at"⟩
  | .arr [title, cells, items, compiledAt] => some ⟨title, cells, items, compiledAt⟩
  | _ => none

/-- Each part can be loaded by itself: title, items and timestamp to what is given, and every entry
of the cells is under the text of an identifier and holds a cell. -/
structure StoryData.Loadable (data : StoryData) (title : String) (entries : List (String × Json))
    (items : Registry) (compiledAt : Timestamp) : Prop where
  title : loadString data.title = .ok title
  cells : data.cells = .obj entries
  items : loadRegistry data.items = .ok items
  compiledAt : loadTimestamp data.compiledAt = .ok compiledAt
  names : ∀ e ∈ entries, ∃ id, CellId.ofText e.1 = .ok id
  values : ∀ e ∈ entries, ∃ cell, loadCell e.2 = .ok cell

/-- Of the entries whose names write the identifier the one stays whose name is last in order; of
entries with one name the last. -/
def Survives (entries : List (String × Json)) (id : CellId) (cell : Cell) : Prop :=
  ∃ name value, (Json.obj entries).field? name = some value ∧ CellId.ofText name = .ok id ∧
    loadCell value = .ok cell ∧ ∀ e ∈ entries, CellId.ofText e.1 = .ok id → e.1 ≤ name

/-- Another entry takes the place of this one: one for the same identifier with a name further on in
order, or one with the same name further on as written. -/
def Replaced (front : List (String × Json)) (e : String × Json) (behind : List (String × Json)) :
    Prop :=
  (∃ other ∈ front ++ behind, CellId.ofText other.1 = CellId.ofText e.1 ∧ e.1 < other.1) ∨
    ∃ other ∈ behind, other.1 = e.1

/-! ## The record -/

theorem StoryParts.set_unknown (p : StoryParts) {name : String} (value : Json)
    (h : name ∉ ["cells", "compiled_at", "items", "title"]) : p.set name value = .ok p := by
  unfold StoryParts.set
  split <;> simp_all

/-- Loading a story loads its parts and puts them together. -/
theorem loadStory_eq {value : Json} {data : StoryData} (hdata : StoryData.of? value = some data)
    {title : String} {cells : Directory Cell} {items : Registry} {compiledAt : Timestamp}
    (htitle : loadString data.title = .ok title) (hcells : loadCells data.cells = .ok cells)
    (hitems : loadRegistry data.items = .ok items)
    (htime : loadTimestamp data.compiledAt = .ok compiledAt) :
    loadStory value = checked (assemble title cells items compiledAt) := by
  have hparts : loadRecord ["title", "cells", "items", "compiled_at"] StoryParts.set
      ⟨none, none, none, none⟩ value =
        .ok ⟨some title, some cells, some items, some compiledAt⟩ := by
    unfold StoryData.of? at hdata
    split at hdata
    next fields =>
      simp only [Option.bind_eq_bind, Option.bind_eq_some_iff, Option.pure_def,
        Option.some.injEq] at hdata
      obtain ⟨t, ht, c, hc, i, hi, s, hs, rfl⟩ := hdata
      rw [loadRecord_obj ["cells", "compiled_at", "items", "title"] (by decide)
        fun p name value h => p.set_unknown value h]
      simp only [List.map_cons, List.map_nil, ht, hc, hi, hs, List.foldlM_cons, List.foldlM_nil,
        setPresent, StoryParts.set, htitle, hcells, hitems, htime, Except.map, ok_bind]
      rfl
    next t c i s =>
      obtain rfl := Option.some.inj hdata
      simp only [loadRecord, recordFields, List.zip_cons_cons, List.zip_nil_left, List.foldlM_cons,
        List.foldlM_nil, StoryParts.set, htitle, hcells, hitems, htime, Except.map, ok_bind]
      rfl
    next => exact absurd hdata (by simp)
  rw [loadStory, hparts]
  rfl

/-! ## The entries that stay -/

/-- Of the entries for the identifier the one with the last name holds the cell. -/
def LastFor (fields : List (String × Json)) (id : CellId) (cell : Cell) : Prop :=
  ∃ f ∈ fields, CellId.ofText f.1 = .ok id ∧ loadCell f.2 = .ok cell ∧
    ∀ g ∈ fields, CellId.ofText g.1 = .ok id → g.1 ≤ f.1

section Concat

variable {fields : List (String × Json)} {f : String × Json} {id id' : CellId} {cell cell' : Cell}
variable (hid : CellId.ofText f.1 = .ok id)
include hid

/-- An entry behind all others holds the cell of its identifier. -/
theorem lastFor_concat_self (hlt : ∀ g ∈ fields, g.1 < f.1) (hcell : loadCell f.2 = .ok cell) :
    LastFor (fields ++ [f]) id cell' ↔ cell = cell' := by
  have hlast : f ∈ fields ++ [f] := List.mem_append_right _ List.mem_cons_self
  constructor
  · rintro ⟨g, hg, -, hcell', hmax⟩
    rcases List.mem_append.mp hg with hg | hg
    · exact absurd (hlt g hg) (String.not_lt.mpr (hmax f hlast hid))
    · obtain rfl := List.mem_singleton.mp hg
      exact Except.ok.inj (hcell.symm.trans hcell')
  · rintro rfl
    refine ⟨f, hlast, hid, hcell, fun g hg _ => ?_⟩
    rcases List.mem_append.mp hg with hg | hg
    · exact Std.le_of_lt (hlt g hg)
    · exact List.mem_singleton.mp hg ▸ String.le_refl _

/-- What is held for other identifiers stays. -/
theorem lastFor_concat_of_ne (hne : id ≠ id') :
    LastFor (fields ++ [f]) id' cell ↔ LastFor fields id' cell := by
  have hother : CellId.ofText f.1 ≠ .ok id' := fun h => hne (Except.ok.inj (hid.symm.trans h))
  constructor
  · rintro ⟨g, hg, hgid, hcell, hmax⟩
    rcases List.mem_append.mp hg with hg | hg
    · exact ⟨g, hg, hgid, hcell, fun h hh => hmax h (List.mem_append_left _ hh)⟩
    · exact absurd (List.mem_singleton.mp hg ▸ hgid) hother
  · rintro ⟨g, hg, hgid, hcell, hmax⟩
    refine ⟨g, List.mem_append_left _ hg, hgid, hcell, fun h hh hhid => ?_⟩
    rcases List.mem_append.mp hh with hh | hh
    · exact hmax h hh hhid
    · exact absurd (List.mem_singleton.mp hh ▸ hhid) hother

end Concat

/-- Entries in the order of their names load, and under each identifier is the last of them for
it: one more entry at the end takes the place of those for its identifier. -/
theorem exists_foldlM_loadEntry {fields : List (String × Json)} (hs : Json.Ascending fields)
    (hnames : ∀ e ∈ fields, ∃ id, CellId.ofText e.1 = .ok id)
    (hvalues : ∀ e ∈ fields, ∃ cell, loadCell e.2 = .ok cell) :
    ∃ cells, fields.foldlM (fun cells f => loadEntry cells f.1 f.2) .empty = .ok cells ∧
      ∀ id cell, cells.find? id = some cell ↔ LastFor fields id cell := by
  induction fields using List.reverseRecOn with
  | nil => exact ⟨.empty, rfl, fun id cell => by simp [LastFor]⟩
  | append_singleton fields f ih =>
      obtain ⟨hfields, -, hbefore⟩ := List.pairwise_append.mp hs.pairwise
      have hlt : ∀ g ∈ fields, g.1 < f.1 := fun g hg => hbefore g hg f List.mem_cons_self
      obtain ⟨hnames, hname⟩ := List.forall_mem_append.mp hnames
      obtain ⟨hvalues, hvalue⟩ := List.forall_mem_append.mp hvalues
      obtain ⟨cells, hload, hfind⟩ := ih (List.pairwise_map.mpr hfields) hnames hvalues
      obtain ⟨id', hid⟩ := hname f List.mem_cons_self
      obtain ⟨cell', hcell⟩ := hvalue f List.mem_cons_self
      have hentry : loadEntry cells f.1 f.2 = .ok (cells.insert id' cell') := by
        rw [loadEntry, hid, hcell]
        rfl
      refine ⟨cells.insert id' cell', ?_, fun id cell => ?_⟩
      · rw [List.foldlM_append, hload, ok_bind, List.foldlM_cons, hentry]
        rfl
      · rw [Directory.find?_insert]
        split
        next heq =>
          subst heq
          rw [lastFor_concat_self hid hlt hcell, Option.some.injEq]
        next hne => rw [lastFor_concat_of_ne hid hne, hfind]

/-- Loaded cells are those that stay. -/
theorem exists_loadCells {entries : List (String × Json)}
    (hnames : ∀ e ∈ entries, ∃ id, CellId.ofText e.1 = .ok id)
    (hvalues : ∀ e ∈ entries, ∃ cell, loadCell e.2 = .ok cell) :
    ∃ cells, loadCells (.obj entries) = .ok cells ∧
      ∀ id cell, cells.find? id = some cell ↔ Survives entries id cell := by
  have hmem : ∀ f ∈ Json.sortFields entries, f ∈ entries := fun f hf =>
    Json.mem_of_field? (Json.mem_sortFields_iff.mp hf)
  obtain ⟨cells, hload, hfind⟩ := exists_foldlM_loadEntry (Json.ascending_sortFields entries)
    (fun e he => hnames e (hmem e he)) (fun e he => hvalues e (hmem e he))
  refine ⟨cells, hload, fun id cell => (hfind id cell).trans ?_⟩
  constructor
  · rintro ⟨f, hf, hid, hcell, hmax⟩
    refine ⟨f.1, f.2, Json.mem_sortFields_iff.mp hf, hid, hcell, fun e he heid => ?_⟩
    obtain ⟨value, hvalue⟩ := Json.exists_field? he
    exact hmax (e.1, value) (Json.mem_sortFields_iff.mpr hvalue) heid
  · rintro ⟨name, value, hfield, hid, hcell, hmax⟩
    exact ⟨(name, value), Json.mem_sortFields_iff.mpr hfield, hid, hcell,
      fun g hg => hmax g (hmem g hg)⟩

/-! ## The check -/

theorem mem_of_firstMisaddressed? {cells : Directory Cell} {id : CellId} {cell : Cell}
    (h : firstMisaddressed? cells = some (id, cell)) :
    cells.find? id = some cell ∧ cell.id ≠ id ∧
      ∀ id' cell', cells.find? id' = some cell' → cell'.id ≠ id' → ¬id' < id := by
  obtain ⟨hbad, front, behind, hentries, hfront⟩ := List.find?_eq_some_iff_append.mp h
  have hbad : id ≠ cell.id := by simpa using hbad
  refine ⟨Directory.find?_of_mem ?_, hbad.symm, fun id' cell' hfind hbad' hlt => ?_⟩
  · rw [hentries]
    exact List.mem_append_right _ List.mem_cons_self
  · have hm := Directory.mem_of_find? hfind
    have hasc := cells.ascending
    rw [hentries] at hm hasc
    obtain ⟨-, hbehind, -⟩ := List.pairwise_append.mp hasc
    rcases List.mem_append.mp hm with hm | hm
    · have hgood : id' = cell'.id := by simpa using hfront _ hm
      exact hbad' hgood.symm
    · rcases List.mem_cons.mp hm with he | hm
      · obtain ⟨rfl, -⟩ := Prod.mk.inj he
        exact UInt32.lt_irrefl _ hlt
      · exact UInt32.lt_asymm hlt ((List.pairwise_cons.mp hbehind).1 _ hm)

/-- Parts go together if every cell is where it belongs, and else the first that is not is
reported. -/
theorem assemble_cases (title : String) (cells : Directory Cell) (items : Registry)
    (compiledAt : Timestamp) :
    (∃ h : Addressed cells,
      assemble title cells items compiledAt = .ok ⟨title, cells, items, compiledAt, h⟩) ∨
    ∃ id cell, firstMisaddressed? cells = some (id, cell) ∧
      assemble title cells items compiledAt = .error (.misaddressedCell cell.name id cell.id) := by
  unfold assemble
  split
  next id cell h => exact Or.inr ⟨id, cell, h, rfl⟩
  next h => exact Or.inl ⟨addressed_of_firstMisaddressed? h, rfl⟩

/-! ## Entries that are replaced -/

/-- An entry that another follows under its name, or one under another name, gives no value. -/
theorem field?_without {front behind : List (String × Json)} {e : String × Json} {name : String}
    (h : e.1 ≠ name ∨ ∃ other ∈ behind, other.1 = e.1) :
    (Json.obj (front ++ e :: behind)).field? name = (Json.obj (front ++ behind)).field? name := by
  simp only [Json.field?, List.reverse_append, List.reverse_cons, List.append_assoc,
    List.find?_append, List.find?_cons, List.find?_nil]
  by_cases hn : e.1 = name
  · obtain ⟨other, hm, ho⟩ := h.resolve_left (not_not.mpr hn)
    have hfound : (behind.reverse.find? fun f => decide (f.1 = name)).isSome := by
      rw [List.find?_isSome]
      exact ⟨other, List.mem_reverse.mpr hm, by simp [ho, hn]⟩
    obtain ⟨f, hf⟩ := Option.isSome_iff_exists.mp hfound
    simp [hf]
  · simp [hn]

/-- What is replaced decides nothing about what stays. -/
theorem Replaced.survives_iff {front behind : List (String × Json)} {e : String × Json}
    (h : Replaced front e behind) (id : CellId) (cell : Cell) :
    Survives (front ++ e :: behind) id cell ↔ Survives (front ++ behind) id cell := by
  have hmem : ∀ f, f ∈ front ++ e :: behind ↔ f = e ∨ f ∈ front ++ behind := by
    intro f
    simp only [List.mem_append, List.mem_cons]
    tauto
  -- the entry that takes the place has a name as far on in order, and is there in either list
  obtain ⟨other, hother, hid, hle⟩ : ∃ other ∈ front ++ behind,
      CellId.ofText other.1 = CellId.ofText e.1 ∧ e.1 ≤ other.1 := by
    rcases h with ⟨other, hm, hid, hlt⟩ | ⟨other, hm, hname⟩
    · exact ⟨other, hm, hid, Std.le_of_lt hlt⟩
    · exact ⟨other, List.mem_append_right _ hm, by rw [hname], hname ▸ String.le_refl _⟩
  -- so the name that stays has its value from another entry
  have hfield : ∀ name, CellId.ofText name = .ok id →
      (∀ f ∈ front ++ behind, CellId.ofText f.1 = .ok id → f.1 ≤ name) →
      (Json.obj (front ++ e :: behind)).field? name =
        (Json.obj (front ++ behind)).field? name := by
    intro name hname hmax
    refine field?_without ?_
    rcases h with ⟨next, hm, hnext, hlt⟩ | hlater
    · refine Or.inl fun he => ?_
      have hnextle : next.1 ≤ name := hmax next hm (by rw [hnext, he, hname])
      exact absurd (he ▸ hlt) (String.not_lt.mpr hnextle)
    · exact Or.inr hlater
  constructor
  · rintro ⟨name, value, hvalue, hname, hcell, hmax⟩
    have hmax' : ∀ f ∈ front ++ behind, CellId.ofText f.1 = .ok id → f.1 ≤ name := fun f hf =>
      hmax f ((hmem f).mpr (Or.inr hf))
    exact ⟨name, value, hfield name hname hmax' ▸ hvalue, hname, hcell, hmax'⟩
  · rintro ⟨name, value, hvalue, hname, hcell, hmax⟩
    refine ⟨name, value, (hfield name hname hmax).trans hvalue, hname, hcell, fun f hf hfid => ?_⟩
    rcases (hmem f).mp hf with rfl | hf
    · exact String.le_trans hle (hmax other hother (hid.trans hfid))
    · exact hmax f hf hfid

/-! ## Loading -/

/-- Every cell of a story is under the identifier of its name, and storing a cell changes what is
there and nothing else.  Story data whose parts can be loaded is accepted exactly if every entry of
the cells that stays is under the identifier of its cell, and the story then has these cells; if it
is not, the misplaced entry with the smallest identifier is reported.  An entry that is replaced
plays no part. -/
theorem loadStory_addressed :
    (∀ (story : Story) (id : CellId) (cell : Cell), story.cell? id = some cell →
      CellId.ofName cell.name = id) ∧
    (∀ (story : Story) (cell : Cell), (story.putCell cell).1 = story.cell? cell.id ∧
      (story.putCell cell).2.cell? cell.id = some cell ∧
      ∀ id, id ≠ cell.id → (story.putCell cell).2.cell? id = story.cell? id) ∧
    (∀ (value : Json) (data : StoryData) (title : String) (entries : List (String × Json))
      (items : Registry) (compiledAt : Timestamp), StoryData.of? value = some data →
      data.Loadable title entries items compiledAt →
      ((∃ story, loadStory value = .ok story) ↔
        ∀ id cell, Survives entries id cell → id = CellId.ofName cell.name) ∧
      (∀ story, loadStory value = .ok story → story.title = title ∧ story.items = items ∧
        story.compiledAt = compiledAt ∧
        ∀ id cell, story.cell? id = some cell ↔ Survives entries id cell) ∧
      ∀ e, loadStory value = .error e → ∃ id cell, Survives entries id cell ∧
        id ≠ CellId.ofName cell.name ∧
        (∀ id' cell', Survives entries id' cell' → id' ≠ CellId.ofName cell'.name → ¬id' < id) ∧
        e = .fault (.misaddressedCell cell.name id (CellId.ofName cell.name))) ∧
    ∀ (value value' : Json) (data data' : StoryData) (title : String)
      (front : List (String × Json)) (e : String × Json) (behind : List (String × Json))
      (items : Registry) (compiledAt : Timestamp), StoryData.of? value = some data →
      StoryData.of? value' = some data' →
      data.Loadable title (front ++ e :: behind) items compiledAt →
      data'.Loadable title (front ++ behind) items compiledAt → Replaced front e behind →
      loadStory value = loadStory value' := by
  refine ⟨fun story id cell => Story.id_of_cell?, Story.putCell_spec, ?_, ?_⟩
  · intro value data title entries items compiledAt hdata hparts
    obtain ⟨cells, hload, hfind⟩ := exists_loadCells hparts.names hparts.values
    have hstory := loadStory_eq hdata hparts.title (hparts.cells ▸ hload) hparts.items
      hparts.compiledAt
    rw [hstory]
    rcases assemble_cases title cells items compiledAt with ⟨haddr, ha⟩ | ⟨id, cell, hfirst, ha⟩
    · rw [ha]
      refine ⟨⟨fun _ id cell hs => ?_, fun _ => ⟨_, rfl⟩⟩, fun story h => ?_, fun e h => ?_⟩
      · exact haddr _ (Directory.mem_of_find? ((hfind id cell).mpr hs))
      · obtain rfl := Except.ok.inj h
        exact ⟨rfl, rfl, rfl, hfind⟩
      · exact absurd h (by simp [checked])
    · rw [ha]
      obtain ⟨hcell, hbad, hmin⟩ := mem_of_firstMisaddressed? hfirst
      have hs := (hfind id cell).mp hcell
      refine ⟨⟨fun ⟨story, h⟩ => absurd h (by simp [checked]), fun h => ?_⟩, fun story h => ?_,
        fun e h => ?_⟩
      · exact absurd (h id cell hs).symm hbad
      · exact absurd h (by simp [checked])
      · refine ⟨id, cell, hs, Ne.symm hbad, fun id' cell' hs' hbad' => ?_,
          (Except.error.inj h).symm⟩
        exact hmin id' cell' ((hfind id' cell').mpr hs') (Ne.symm hbad')
  · intro value value' data data' title front e behind items compiledAt hdata hdata' hparts hparts'
      hreplaced
    obtain ⟨cells, hload, hfind⟩ := exists_loadCells hparts.names hparts.values
    obtain ⟨cells', hload', hfind'⟩ := exists_loadCells hparts'.names hparts'.values
    have hcells : cells = cells' := Directory.ext_of_find? fun id => Option.ext fun cell => by
      rw [hfind, hfind', hreplaced.survives_iff]
    rw [loadStory_eq hdata hparts.title (hparts.cells ▸ hload) hparts.items hparts.compiledAt,
      loadStory_eq hdata' hparts'.title (hparts'.cells ▸ hload') hparts'.items hparts'.compiledAt,
      hcells]

/-- A story of the given cells. -/
def hallData (entries : List (String × Json)) : Json :=
  .obj [("title", .str "Hall"), ("cells", .obj entries), ("items", .arr []),
    ("compiled_at", .str Timestamp.epoch.text)]

/-- A cell that is misplaced under the identifier of the start. -/
def strayEntry : String × Json := ("B72C5E85", saveCell ⟨"end", none, []⟩)

/-- The start under the same identifier, in the letter case that comes later. -/
def startEntry : String × Json := ("b72c5e85", saveCell ⟨"Start", none, []⟩)

theorem loadStory_addressed_hall :
    (∃ story, loadStory (hallData [strayEntry, startEntry]) = .ok story ∧
      (∀ id cell, Survives [strayEntry, startEntry] id cell → id = CellId.ofName cell.name) ∧
      (story.putCell ⟨"end", none, []⟩).2.cell? (CellId.ofName "end") =
        some ⟨"end", none, []⟩) ∧
    loadStory (hallData [strayEntry, startEntry]) = loadStory (hallData [startEntry]) ∧
    ∃ id cell, Survives [strayEntry] id cell ∧ id ≠ CellId.ofName cell.name ∧
      loadStory (hallData [strayEntry]) =
        .error (.fault (.misaddressedCell cell.name id (CellId.ofName cell.name))) := by
  have hstray : CellId.ofText strayEntry.1 = .ok .start ∧
      ∃ cell, loadCell strayEntry.2 = .ok cell := ⟨by decide +kernel, _, loadCell_saveCell _⟩
  have hstart : CellId.ofText startEntry.1 = .ok .start ∧
      ∃ cell, loadCell startEntry.2 = .ok cell := ⟨by decide +kernel, _, loadCell_saveCell _⟩
  have hloadable : ∀ entries : List (String × Json),
      (∀ e ∈ entries, e = strayEntry ∨ e = startEntry) →
      StoryData.Loadable ⟨.str "Hall", .obj entries, .arr [], .str Timestamp.epoch.text⟩ "Hall"
        entries .empty .epoch := by
    intro entries hentries
    refine ⟨rfl, rfl, loadRegistry_saveRegistry .empty, loadTimestamp_text _, fun e he => ?_,
      fun e he => ?_⟩
    · rcases hentries e he with rfl | rfl
      · exact ⟨_, hstray.1⟩
      · exact ⟨_, hstart.1⟩
    · rcases hentries e he with rfl | rfl
      · exact hstray.2
      · exact hstart.2
  obtain ⟨-, hput, hloads, hreplaced⟩ := loadStory_addressed
  obtain ⟨haccepts, -, -⟩ := hloads (hallData [strayEntry, startEntry]) _ _ _ _ _ rfl
    (hloadable [strayEntry, startEntry] (by simp))
  obtain ⟨-, -, hrefuses⟩ := hloads (hallData [strayEntry]) _ _ _ _ _ rfl
    (hloadable [strayEntry] (by simp))
  refine ⟨?_, ?_, ?_⟩
  · have hok : (loadStory (hallData [strayEntry, startEntry])).toOption.isSome = true := by
      decide +kernel
    cases hl : loadStory (hallData [strayEntry, startEntry]) with
    | error e =>
        rw [hl] at hok
        exact absurd hok Bool.false_ne_true
    | ok story => exact ⟨story, rfl, haccepts.mp ⟨story, hl⟩, (hput story _).2.1⟩
  · exact hreplaced _ _ _ _ _ [] strayEntry [startEntry] _ _ rfl rfl
      (hloadable [strayEntry, startEntry] (by simp)) (hloadable [startEntry] (by simp))
      (Or.inl ⟨startEntry, List.mem_cons_self, hstart.1.trans hstray.1.symm, by decide +kernel⟩)
  · have hfails : (loadStory (hallData [strayEntry])).toOption.isSome = false := by decide +kernel
    cases hl : loadStory (hallData [strayEntry]) with
    | ok story =>
        rw [hl] at hfails
        exact absurd hfails.symm Bool.false_ne_true
    | error e =>
        obtain ⟨id, cell, hs, hne, -, rfl⟩ := hrefuses e hl
        exact ⟨id, cell, hs, hne, rfl⟩

end Saved

end Gamebook
