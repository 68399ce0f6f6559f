/-
# Compiling yields what the outline says

The compiler holds an open cell, a count of dropped lines and a flag for the
title, and numbers the lines it goes through.  A statement's effect on the story
depends on the open cell alone, so the pass is first brought to a run over the
statements of the outline (`compile_toOption`), and the run is then read off from
the statements ahead (`run?_finished_eq_some_iff`): the open cell still takes the
content lines in front of the next opening, and everything behind is cells of its own.

Main statement: `compile_describes`.
-/
import Gamebook.Proofs.Directory
import Gamebook.Proofs.Source.Outline

namespace Gamebook

/-! ## Storing cells in order -/

namespace Story

/-- A cell is replaced by one of the same name. -/
theorem insertCell_insertCell (story : Story) {cell cell' : Cell} (h : cell'.name = cell.name) :
    (story.insertCell cell).insertCell cell' = story.insertCell cell' := by
  have hid : cell'.id = cell.id := by rw [Cell.id, h, ← Cell.id]
  have hcells : ((story.insertCell cell).insertCell cell').cells =
      (story.insertCell cell').cells := by
    refine Directory.ext_of_find? fun id => ?_
    show ((story.insertCell cell).insertCell cell').cell? id = (story.insertCell cell').cell? id
    rw [cell?_insertCell, cell?_insertCell, cell?_insertCell, hid]
    split <;> rfl
  simp only [insertCell, Story.mk.injEq, true_and, and_true] at hcells ⊢
  exact hcells

def insertCells (story : Story) (cs : List Cell) : Story := cs.foldl insertCell story

/-- Storing cells is a run of insertions under their identifiers. -/
theorem cells_insertCells (cs : List Cell) (story : Story) :
    (story.insertCells cs).cells =
      (cs.map fun cell => (cell.id, cell)).foldl (fun cells e => cells.insert e.1 e.2)
        story.cells := by
  rw [List.foldl_map]
  exact (List.foldl_hom Story.cells fun _ _ => rfl).symm

/-- Of the cells with an identifier the last one stored is there. -/
theorem cell?_insertCells (cs : List Cell) (id : CellId) (story : Story) :
    (story.insertCells cs).cell? id =
      (cs.reverse.find? fun cell => cell.id = id).or (story.cell? id) := by
  simp only [cell?, cells_insertCells, Directory.find?_foldl_insert, ← List.map_reverse,
    List.find?_map, Option.map_map, Function.comp_def, Option.map_id']

def withItems (story : Story) (items : Registry) : Story := { story with items }

/-- Cells do not touch the items, so the two may be changed in either order. -/
theorem insertCells_withItems (cs : List Cell) (items : Registry) :
    ∀ story : Story,
      (story.withItems items).insertCells cs = (story.insertCells cs).withItems items := by
  induction cs with
  | nil => intro story; rfl
  | cons cell rest ih => intro story; exact ih (story.insertCell cell)

theorem insertCells_append (cs cs' : List Cell) (story : Story) :
    story.insertCells (cs ++ cs') = (story.insertCells cs).insertCells cs' := List.foldl_append ..

/-- What storing a cell leaves alone, storing cells does. -/
theorem read_insertCells {α : Type} (read : Story → α)
    (h : ∀ story cell, read (story.insertCell cell) = read story) (cs : List Cell) :
    ∀ story : Story, read (story.insertCells cs) = read story := by
  induction cs with
  | nil => exact fun _ => rfl
  | cons cell rest ih => exact fun story => (ih (story.insertCell cell)).trans (h story cell)

theorem items_insertCells (cs : List Cell) (story : Story) :
    (story.insertCells cs).items = story.items :=
  read_insertCells Story.items (fun _ _ => rfl) cs story

theorem title_insertCells (cs : List Cell) (story : Story) :
    (story.insertCells cs).title = story.title :=
  read_insertCells Story.title (fun _ _ => rfl) cs story

theorem compiledAt_insertCells (cs : List Cell) (story : Story) :
    (story.insertCells cs).compiledAt = story.compiledAt :=
  read_insertCells Story.compiledAt (fun _ _ => rfl) cs story

end Story

namespace Source

open Registry (definedNames itemsOf)

namespace Draft

/-! ## A run over statements -/

/-- The draft after a statement; `none` if the statement is refused. -/
def act? (draft : Draft) (s : Statement) : Option Draft := (draft.apply 0 s).2.toOption

/-- The number of a line shows in events and errors only. -/
theorem apply_toOption (draft : Draft) (number : Nat) (s : Statement) :
    (draft.apply number s).2.toOption = draft.act? s := by
  cases s with
  | openCell name label => rfl
  | defineItem name description =>
      simp only [act?, apply]
      cases draft.story.items.define name description <;> rfl
  | content line =>
      simp only [act?, apply, append]
      cases draft.current <;> rfl
  | refused word => rfl

def run? (draft : Draft) (ss : List Statement) : Option Draft := ss.foldlM act? draft

theorem run?_cons (draft : Draft) (s : Statement) (ss : List Statement) :
    draft.run? (s :: ss) = (draft.act? s).bind fun next => next.run? ss := rfl

/-- The story that comes of a draft when the source ends. -/
def finished (draft : Draft) : Story := draft.close.2.story

theorem act?_openCell (draft : Draft) (name : String) (label : Option String) :
    draft.act? (.openCell name label) =
      some { draft.close.2 with current := some ⟨name, label, []⟩ } := rfl

theorem act?_defineItem (draft : Draft) (name description : String) :
    draft.act? (.defineItem name description) =
      ((draft.story.items.define name description).toOption.map Prod.snd).map fun items =>
        { draft with story := { draft.story with items } } := by
  simp only [act?, apply]
  cases draft.story.items.define name description <;> rfl

theorem act?_content (draft : Draft) (line : Line) :
    draft.act? (.content line) = some (draft.append 0 line).2 := rfl

theorem act?_refused (draft : Draft) (word : String) : draft.act? (.refused word) = none := rfl

/-- No statement touches the flag for the title. -/
theorem titleSeen_of_act? {draft next : Draft} {s : Statement} (h : draft.act? s = some next) :
    next.titleSeen = draft.titleSeen := by
  cases s with
  | openCell name label =>
      obtain rfl := Option.some.inj h
      cases draft.current <;> rfl
  | defineItem name description =>
      rw [act?_defineItem, Option.map_eq_some_iff] at h
      obtain ⟨items, -, rfl⟩ := h
      rfl
  | content line =>
      obtain rfl := Option.some.inj h
      cases draft.current <;> rfl
  | refused word => exact absurd h (by simp [act?_refused])

/-! ## Reading lines is a run over their statements -/

theorem read_blank {draft : Draft} {number : Nat} {raw : List Char}
    (h : (clean raw).isEmpty = true) :
    draft.read number raw = ([.blankLine number], .ok draft) := by
  simp [read, h]

theorem read_toOption_of_titleSeen {draft : Draft} {number : Nat} {raw : List Char}
    (ht : draft.titleSeen = true) (h : (clean raw).isEmpty = false) :
    (draft.read number raw).2.toOption = draft.act? (.classify (clean raw)) := by
  have hd : { draft with titleSeen := true } = draft := by
    cases draft
    simp_all
  simp only [read, h, ht, hd, Bool.not_true, Bool.false_and, Bool.false_eq_true, if_false]
  rw [apply_toOption, Statement.ofLine_eq_classify]

theorem readAll_cons_toOption (draft : Draft) (number : Nat) (raw : List Char)
    (raws : List (List Char)) :
    (draft.readAll number (raw :: raws)).2.toOption =
      (draft.read number raw).2.toOption.bind fun next =>
        (next.readAll (number + 1) raws).2.toOption := by
  rw [readAll]
  obtain ⟨events, result⟩ := draft.read number raw
  cases result <;> rfl

theorem readAll_toOption_of_titleSeen (raws : List (List Char)) :
    ∀ {draft : Draft} (number : Nat), draft.titleSeen = true →
      (draft.readAll number raws).2.toOption = draft.run? ((keptOf raws).map .classify) := by
  induction raws with
  | nil => intro draft number _; rfl
  | cons raw raws ih =>
      intro draft number ht
      rw [readAll_cons_toOption]
      cases h : (clean raw).isEmpty with
      | true =>
          rw [read_blank h, keptOf_cons_of_blank h]
          exact ih (number + 1) ht
      | false =>
          rw [read_toOption_of_titleSeen ht h, keptOf_cons h, List.map_cons, run?_cons]
          cases ha : draft.act? (.classify (clean raw)) with
          | none => rfl
          | some next => exact ih (number + 1) ((titleSeen_of_act? ha).trans ht)

def ready (compiledAt : Timestamp) (title : String) : Draft :=
  ⟨.empty title compiledAt, none, 0, true⟩

theorem read_start_directive {compiledAt : Timestamp} {number : Nat} {raw : List Char}
    (h : (clean raw).isEmpty = false) (hb : beginsWithDirective (clean raw) = true) :
    ((start compiledAt).read number raw).2.toOption =
      (ready compiledAt "").act? (.classify (clean raw)) := by
  simp only [read, start, h, hb, Bool.not_true, Bool.and_false, Bool.false_eq_true, if_false]
  rw [apply_toOption, Statement.ofLine_eq_classify]
  rfl

theorem read_start_title {compiledAt : Timestamp} {number : Nat} {raw : List Char}
    (h : (clean raw).isEmpty = false) (hb : beginsWithDirective (clean raw) = false) :
    ((start compiledAt).read number raw).2.toOption =
      some (ready compiledAt (String.ofList (clean raw))) := by
  simp [read, start, ready, h, hb, Except.toOption, Story.empty]

/-- The same from the very start: blank lines are passed over until the first line decides about
the title. -/
theorem readAll_start (compiledAt : Timestamp) (raws : List (List Char)) :
    ∀ number : Nat,
      ((start compiledAt).readAll number raws).2.toOption.map finished =
        ((ready compiledAt (Outline.ofKept (keptOf raws)).title).run?
          (Outline.ofKept (keptOf raws)).statements).map finished := by
  induction raws with
  | nil => intro number; rfl
  | cons raw raws ih =>
      intro number
      rw [readAll_cons_toOption]
      cases h : (clean raw).isEmpty with
      | true =>
          rw [read_blank h, keptOf_cons_of_blank h]
          exact ih (number + 1)
      | false =>
          rw [keptOf_cons h]
          cases hb : beginsWithDirective (clean raw) with
          | true =>
              rw [read_start_directive h hb]
              simp only [Outline.ofKept, hb, if_true, List.map_cons, run?_cons]
              cases ha : (ready compiledAt "").act? (.classify (clean raw)) with
              | none => rfl
              | some next =>
                  rw [Option.bind_some, Option.bind_some,
                    readAll_toOption_of_titleSeen _ _ (titleSeen_of_act? ha)]
          | false =>
              rw [read_start_title h hb, Option.bind_some, readAll_toOption_of_titleSeen _ _ rfl]
              simp only [Outline.ofKept, hb, Bool.false_eq_true, if_false]

end Draft

/-- A compilation is a run over the statements of the outline. -/
theorem compile_toOption (compiledAt : Timestamp) (source : String) :
    (compile compiledAt source).result.toOption =
      ((Draft.ready compiledAt (outline source).title).run? (outline source).statements).map
        Draft.finished := by
  rw [outline, keptLines, ← Draft.readAll_start compiledAt (splitLines source.toList) 1, compile]
  obtain ⟨events, result⟩ := (Draft.start compiledAt).readAll 1 (splitLines source.toList)
  cases result <;> rfl

/-! ## What a run leaves behind

The open cell is the only thing that ties a statement to those before it. -/

/-- The cells still to be stored: the open one with its lines ahead, then those that open later. -/
def cellsFrom (current : Option Cell) (ss : List Statement) : List Cell :=
  (current.map fun cell => { cell with lines := cell.lines ++ linesAhead ss }).toList ++ cellsOf ss

theorem linesAhead_content (line : Line) (ss : List Statement) :
    linesAhead (.content line :: ss) = line :: linesAhead ss := rfl

theorem cellsFrom_openCell (current : Option Cell) (name : String) (label : Option String)
    (ss : List Statement) :
    cellsFrom current (.openCell name label :: ss) =
      current.toList ++ cellsFrom (some ⟨name, label, []⟩) ss := by
  have hnone : linesAhead (.openCell name label :: ss) = [] := rfl
  cases current <;> simp [cellsFrom, cellsOf, hnone]

theorem cellsFrom_defineItem (current : Option Cell) (name description : String)
    (ss : List Statement) :
    cellsFrom current (.defineItem name description :: ss) = cellsFrom current ss := rfl

theorem cellsFrom_content (current : Option Cell) (line : Line) (ss : List Statement) :
    cellsFrom current (.content line :: ss) =
      cellsFrom (current.map fun cell => { cell with lines := cell.lines ++ [line] }) ss := by
  cases current <;> simp [cellsFrom, cellsOf, linesAhead_content]

namespace Draft

theorem close_story (draft : Draft) :
    draft.close.2.story = draft.story.insertCells draft.current.toList := by
  simp only [close]
  cases draft.current <;> rfl

theorem append_story (draft : Draft) (number : Nat) (line : Line) :
    (draft.append number line).2.story = draft.story := by
  simp only [append]
  cases draft.current <;> rfl

theorem append_current (draft : Draft) (number : Nat) (line : Line) :
    (draft.append number line).2.current =
      draft.current.map fun cell => { cell with lines := cell.lines ++ [line] } := by
  cases hc : draft.current <;> simp [append, hc]

/-- What a run comes to: it stores the cells that are still to be stored and defines the items
that are still to be defined, unless a statement is refused. -/
theorem run?_finished_eq_some_iff (ss : List Statement) :
    ∀ (draft : Draft) (story : Story),
      (draft.run? ss).map finished = some story ↔
        (∀ word, Statement.refused word ∉ ss) ∧
          ∃ items, draft.story.items.defineAll? (definitionsOf ss) = some items ∧
            (draft.story.withItems items).insertCells (cellsFrom draft.current ss) = story := by
  induction ss with
  | nil =>
      intro draft story
      have hcells : cellsFrom draft.current [] = draft.current.toList := by
        cases hc : draft.current <;> simp [cellsFrom, cellsOf, linesAhead]
      have hrun : (draft.run? []).map finished = some draft.close.2.story := rfl
      have hitems : draft.story.items.defineAll? (definitionsOf []) = some draft.story.items := rfl
      have hself : draft.story.withItems draft.story.items = draft.story := rfl
      simp [hrun, hitems, hcells, close_story, hself]
  | cons s ss ih =>
      intro draft story
      rw [run?_cons]
      cases s with
      | openCell name label =>
          have hd : definitionsOf (.openCell name label :: ss) = definitionsOf ss := rfl
          rw [act?_openCell, Option.bind_some, ih, hd, cellsFrom_openCell]
          -- storing the open cell now or with the others comes to the same
          simp only [close_story, Story.items_insertCells, Story.insertCells_append,
            Story.insertCells_withItems, List.mem_cons, reduceCtorEq, false_or]
      | defineItem name description =>
          have hd : definitionsOf (.defineItem name description :: ss) =
            (name, description) :: definitionsOf ss := rfl
          rw [act?_defineItem, hd, cellsFrom_defineItem, Registry.defineAll?_cons]
          cases hdef : (draft.story.items.define name description).toOption.map Prod.snd with
          | none => simp
          | some items =>
              rw [Option.map_some, Option.bind_some, ih]
              simp [Story.withItems]
      | content line =>
          have hd : definitionsOf (.content line :: ss) = definitionsOf ss := rfl
          rw [act?_content, Option.bind_some, ih, append_story, append_current, cellsFrom_content,
            hd]
          simp
      | refused word =>
          rw [act?_refused]
          constructor
          · intro h
            exact absurd h (by simp)
          · rintro ⟨hr, -⟩
            exact absurd List.mem_cons_self (hr word)

end Draft

/-! ## Compiling a source -/

theorem toOption_eq_some_iff {ε α : Type} {r : Except ε α} {x : α} :
    r.toOption = some x ↔ r = .ok x := by
  cases r <;> simp [Except.toOption]

theorem exists_eq_ok_of_isSome {ε α : Type} {r : Except ε α} (h : r.toOption.isSome = true) :
    ∃ x, r = .ok x := by
  obtain ⟨x, hx⟩ := Option.isSome_iff_exists.mp h
  exact ⟨x, toOption_eq_some_iff.mp hx⟩

/-- The story that a source compiles to is built from what its outline says, in the order of the
outline. -/
theorem compile_result_eq_ok_iff {compiledAt : Timestamp} {source : String} {story : Story} :
    (compile compiledAt source).result = .ok story ↔
      (∀ word, Statement.refused word ∉ (outline source).statements) ∧
        ∃ items,
          Registry.empty.defineAll? (definitionsOf (outline source).statements) = some items ∧
          ((Story.empty (outline source).title compiledAt).withItems items).insertCells
            (cellsOf (outline source).statements) = story := by
  rw [← toOption_eq_some_iff, compile_toOption, Draft.run?_finished_eq_some_iff]
  rfl

theorem describes_of_result {compiledAt : Timestamp} {source : String} {story : Story}
    (h : (compile compiledAt source).result = .ok story) : (outline source).Describes story := by
  obtain ⟨-, items, hitems, rfl⟩ := compile_result_eq_ok_iff.mp h
  constructor
  · rw [Story.title_insertCells]
    rfl
  · rw [Story.items_insertCells]
    exact Registry.items_of_defineAll? hitems
  · intro id
    have hempty :
        ((Story.empty (outline source).title compiledAt).withItems items).cell? id = none := rfl
    rw [Story.cell?_insertCells, hempty, Option.or_none]

/-- A source compiles exactly if its outline has nothing to refuse, whenever it is compiled. -/
theorem exists_result_eq_ok_iff (compiledAt : Timestamp) {source : String} :
    (∃ story, (compile compiledAt source).result = .ok story) ↔ (outline source).Accepted := by
  simp only [compile_result_eq_ok_iff, Outline.Accepted, ← Registry.exists_defineAll?_iff]
  constructor
  · rintro ⟨story, hr, items, hitems, -⟩
    exact ⟨hr, items, hitems⟩
  · rintro ⟨hr, items, hitems⟩
    exact ⟨_, hr, items, hitems, rfl⟩

/-- A source compiles exactly if its outline has nothing to refuse, and the story that comes of it
is then what the outline says. -/
theorem compile_describes (compiledAt : Timestamp) (source : String) :
    ((∃ story, (compile compiledAt source).result = .ok story) ↔ (outline source).Accepted) ∧
      ∀ story, (compile compiledAt source).result = .ok story →
        (outline source).Describes story ∧ story.compiledAt = compiledAt := by
  refine ⟨exists_result_eq_ok_iff compiledAt, fun story h => ⟨describes_of_result h, ?_⟩⟩
  obtain ⟨-, items, -, rfl⟩ := compile_result_eq_ok_iff.mp h
  rw [Story.compiledAt_insertCells]
  rfl

/-- A line in front of the first cell, an item described twice, a cell opened twice. -/
def reopenedSource : String :=
  "A short walk # the title
stray words
%lamp A lamp
:Start The gate
?lamp >Cave Go in
%lamp A brass lamp
:Start The gate at night
!lamp &lamp Take the lamp"

theorem compile_describes_reopened :
    ∃ story, (compile .epoch reopenedSource).result = .ok story ∧
      (outline reopenedSource).Describes story ∧
      story.items.items = [⟨"lamp", 0, "A brass lamp"⟩] := by
  have hok : (compile .epoch reopenedSource).result.toOption.isSome = true := by decide +kernel
  obtain ⟨story, hr⟩ := exists_eq_ok_of_isSome hok
  obtain ⟨hd, -⟩ := (compile_describes .epoch reopenedSource).2 story hr
  refine ⟨story, hr, hd, ?_⟩
  rw [hd.items]
  decide +kernel

end Source

end Gamebook
