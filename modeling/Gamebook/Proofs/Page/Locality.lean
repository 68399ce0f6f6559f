/-
# What a page reads of its story

A page is made of the lines of its own cell.  Beyond them it asks the registry about
names and bits, and the cells it links to for their heading, if there are such cells;
which cells these are is found out by identifier while the page is made.  Two stories
that agree in this much show the same page, whatever else is in them.

The pages are made side by side.  A link is presented alike in both stories
(`present_eq`), so a line is evaluated alike (`evaluate_eq`), so all lines are
(`evaluateLines_eq`); comment, heading and inventory read nothing further.

Main statement: `render_eq_of_sameView`.
-/
import Gamebook.Page.Render
import Gamebook.Proofs.Registry.Bits

namespace Gamebook.Page

/-- Both stories have the cell and the items; of each cell it links to they show the same heading,
or both lack it. -/
structure SameView (a b : Story) (id : CellId) (cell : Cell) : Prop where
  items : a.items.items = b.items.items
  cell_eq : a.cell? id = some cell
  cell_eq' : b.cell? id = some cell
  headings : ∀ line ∈ cell.lines, ∀ target, line.linksTo = some target →
    (a.cellNamed? target).map Cell.heading = (b.cellNamed? target).map Cell.heading

/-! ## One line in two stories -/

section TwoStories

variable {a b : Story} (settings : Settings)

/-- A link asks its target for the heading and for nothing else. -/
theorem present_eq {line : Line}
    (h : ∀ target, line.linksTo = some target →
      (a.cellNamed? target).map Cell.heading = (b.cellNamed? target).map Cell.heading)
    (index : Nat) (held : Holdings) :
    present settings a index line held = present settings b index line held := by
  cases hl : line.linksTo with
  | none => simp only [present, hl]
  | some target =>
      have hheading := h target hl
      cases ha : a.cellNamed? target with
      | none =>
          rw [ha, Option.map_none, eq_comm, Option.map_eq_none_iff] at hheading
          simp only [present, hl, ha, hheading]
      | some cell =>
          rw [ha, Option.map_some, eq_comm, Option.map_eq_some_iff] at hheading
          -- the two targets may be different cells
          obtain ⟨cell', hb, hsame⟩ := hheading
          simp only [present, hl, ha, hb, hsame]

variable (hitems : a.items = b.items)
include hitems

/-- The step: a line comes to the same in both stories. -/
theorem evaluate_eq {line : Line}
    (h : ∀ target, line.linksTo = some target →
      (a.cellNamed? target).map Cell.heading = (b.cellNamed? target).map Cell.heading)
    (index : Nat) (held : Holdings) :
    evaluate settings a index line held = evaluate settings b index line held := by
  -- guards, gift and loss ask the registry alone
  have hpresent := present_eq settings h index
  simp only [evaluate, hitems, hpresent]

/-- The run: all lines of a cell come to the same. -/
theorem evaluateLines_eq {lines : List Line}
    (h : ∀ line ∈ lines, ∀ target, line.linksTo = some target →
      (a.cellNamed? target).map Cell.heading = (b.cellNamed? target).map Cell.heading) :
    ∀ index held,
      evaluateLines settings a index held lines = evaluateLines settings b index held lines := by
  induction lines with
  | nil => exact fun _ _ => rfl
  | cons line lines ih =>
      intro index held
      have hline := evaluate_eq settings hitems (h line List.mem_cons_self) index held
      have hrest := ih fun l hl => h l (List.mem_cons_of_mem _ hl)
      rw [evaluateLines, evaluateLines, hline]
      exact congrArg _ (hrest (index + 1) (evaluate settings b index line held).held)

end TwoStories

/-! ## The page -/

/-- Whoever enters the cell, with whatever holdings and settings, is shown the same page in both
stories: the same events are reported and the same text is written in the same order, and the page
is summed up alike. -/
theorem render_eq_of_sameView {a b : Story} {id : CellId} {cell : Cell}
    (h : SameView a b id cell) (settings : Settings) (held : Holdings) :
    render settings a id held = render settings b id held := by
  have hitems : a.items = b.items := Registry.items_injective h.items
  have hlines := evaluateLines_eq settings hitems h.headings 0 held
  rw [render, h.cell_eq, render, h.cell_eq']
  simp only [renderCell, hlines, hitems]

/-- A ferry that leads back to itself, over the river, and to an island that is not written. -/
def ferry : Cell :=
  ⟨"Start", some "The ferry",
    [⟨[], ["coin"], some "coin", none, some "Start", ""⟩,
      ⟨["coin"], [], none, some "coin", some "Shore", ""⟩,
      ⟨[], [], none, none, some "Island", "Row out"⟩]⟩

/-- The shore is a cell of the same heading by its name. -/
def river : Story :=
  ({ Story.empty "A river" .epoch with
    items := ⟨[⟨"coin", 0, "A coin"⟩], rfl, by decide, by decide⟩ }
    |>.insertCell ferry).insertCell ⟨"Shore", none, [.ofText "Sand."]⟩

/-- Here the shore has its heading from a label, other lines and a link, and there is a mill.  It
was compiled at another time. -/
def otherRiver : Story :=
  (({ Story.empty "Another river" ⟨⟨2001, 2, 3⟩, ⟨4, 5, 6, 7⟩, by decide, by decide⟩ with
    items := ⟨[⟨"coin", 0, "A coin"⟩], rfl, by decide, by decide⟩ }
    |>.insertCell ferry).insertCell
      ⟨"Shore", some "Shore", [⟨[], [], some "coin", none, some "Mill", "Go on"⟩]⟩).insertCell
    ⟨"Mill", none, []⟩

theorem render_eq_river :
    SameView river otherRiver .start ferry ∧ river.sameContent otherRiver = false ∧
      (render .default river .start .empty).summary.links =
        [⟨.start, ⟨1⟩⟩, ⟨.ofName "Shore", .empty⟩, ⟨.ofName "Island", .empty⟩] ∧
      render .default otherRiver .start .empty = render .default river .start .empty := by
  have hview : SameView river otherRiver .start ferry := {
    items := rfl
    cell_eq := by decide +kernel
    cell_eq' := by decide +kernel
    headings := by decide +kernel }
  refine ⟨hview, by decide +kernel, by decide +kernel, ?_⟩
  exact (render_eq_of_sameView hview .default .empty).symm

end Gamebook.Page
