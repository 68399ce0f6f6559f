/-
# A cell with other lines

The same page is made once more with fewer lines in its cell.  The cell keeps its name
and its label, so it stays under its identifier and every link shows the heading that it
showed, also a link of the cell to itself.  Lines therefore come to the same in both
stories (`evaluateLines_withLines`).

With the lines up to a place the page is the front of the page with all of them: what
lines come to is settled by those in front of them (`evaluateLines_take`), and what they
write by what the lines in front have written (`bodyActs_isPrefix`).  So a link carries
the holdings with which a page ends that goes no further than its line.

Main statement: `render_front`.
-/
import Gamebook.Proofs.Page.Account
import Gamebook.Proofs.Page.Bytes
import Gamebook.Proofs.Page.Locality

namespace Gamebook

/-- The story with other lines in a cell, which keeps its name and its label. -/
def Story.withLines (story : Story) (cell : Cell) (lines : List Line) : Story :=
  story.insertCell { cell with lines }

namespace Page

/-! ## Other lines in a cell -/

section WithLines

variable {story : Story} {id : CellId} {cell : Cell} (h : story.cell? id = some cell)
include h

theorem cell?_withLines (lines : List Line) :
    (story.withLines cell lines).cell? id = some { cell with lines } := by
  have hid : cell.id = id := Story.id_of_cell? h
  rw [Story.withLines, Story.cell?_insertCell]
  exact if_pos hid

/-- No link shows another heading, nor is one broken that was not. -/
theorem heading_withLines (lines : List Line) (target : String) :
    ((story.withLines cell lines).cellNamed? target).map Cell.heading =
      (story.cellNamed? target).map Cell.heading := by
  by_cases hself : id = .ofName target
  · rw [Story.cellNamed?, Story.cellNamed?, ← hself, cell?_withLines h, h]
    rfl
  · have hother : cell.id ≠ .ofName target := Story.id_of_cell? h ▸ hself
    rw [Story.cellNamed?, Story.withLines, Story.cell?_insertCell]
    exact congrArg (Option.map Cell.heading) (if_neg hother)

theorem evaluateLines_withLines (settings : Settings) (lines : List Line) (index : Nat)
    (held : Holdings) (lines' : List Line) :
    evaluateLines settings (story.withLines cell lines) index held lines' =
      evaluateLines settings story index held lines' := by
  have hitems : (story.withLines cell lines).items = story.items := rfl
  exact evaluateLines_eq settings hitems
    (fun _ _ target _ => heading_withLines h lines target) index held

theorem summary_render_withLines (settings : Settings) (lines : List Line) (held : Holdings) :
    (render settings (story.withLines cell lines) id held).summary =
      ⟨id, true, heldAfter held (evaluateLines settings story 0 held lines),
        linksOf (evaluateLines settings story 0 held lines)⟩ := by
  rw [summary_render settings _ (cell?_withLines h lines), evaluateLines_withLines h]

theorem paragraphsOf_render_withLines (settings : Settings) (lines : List Line)
    (held : Holdings) :
    paragraphsOf (render settings (story.withLines cell lines) id held).acts =
      (evaluateLines settings story 0 held lines).flatMap fun e =>
        (e.outcome.paragraph? settings).toList := by
  rw [paragraphsOf_render settings (cell?_withLines h lines), evaluateLines_withLines h]

end WithLines

/-! ## Lines up to a place -/

theorem evaluateLines_take (settings : Settings) (story : Story) (lines : List Line) :
    ∀ (index : Nat) (held : Holdings) (n : Nat),
      evaluateLines settings story index held (lines.take n) =
        (evaluateLines settings story index held lines).take n := by
  induction lines with
  | nil => intro index held n; rw [List.take_nil, evaluateLines, List.take_nil]
  | cons line lines ih =>
      intro index held n
      cases n with
      | zero => rfl
      | succ n => rw [List.take_succ_cons, evaluateLines, ih, evaluateLines, List.take_succ_cons]

theorem heldAfter_concat (held : Holdings) (es : List Evaluation) (e : Evaluation) :
    heldAfter held (es ++ [e]) = e.held := by
  induction es generalizing held with
  | nil => rfl
  | cons first es ih => exact ih first.held

theorem linksOf_append (es es' : List Evaluation) :
    linksOf (es ++ es') = linksOf es ++ linksOf es' := List.flatMap_append

/-- What lines write does not change when others are put behind them. -/
theorem bodyActs_isPrefix (settings : Settings) (es es' : List Evaluation) :
    ∀ afterBlank, bodyActs settings afterBlank es <+: bodyActs settings afterBlank (es ++ es') := by
  induction es with
  | nil => exact fun _ => List.nil_prefix
  | cons e es ih =>
      intro afterBlank
      rw [List.cons_append, bodyActs, bodyActs, List.prefix_append_right_inj]
      exact ih _

theorem bytesOf_textOf_isPrefix {acts acts' : List Act} (h : acts <+: acts') :
    bytesOf (textOf acts) <+: bytesOf (textOf acts') := by
  obtain ⟨rest, rfl⟩ := h
  rw [textOf_append, bytesOf_append]
  exact List.prefix_append _ _

/-! ## The page up to a place -/

/-- A page is a frame around what its lines write (`body`) and what they report (`told`): comment
and heading in front, the end of the article and the inventory behind, and the two events of
entering and leaving. -/
structure Framed (settings : Settings) (story : Story) (id : CellId) (cell : Cell)
    (held : Holdings) (page : Rendering) (body : String) (told : List Event) : Prop where
  text : page.text = textOf (commentActs settings id held) ++ headingText cell ++ body ++
    textOf (inventoryActs settings story.items page.summary.held)
  events : page.events = .cellEntered id held :: told ++
    [.finished id page.summary.held page.summary.links.length]

theorem framed_render (settings : Settings) {story : Story} {id : CellId} {cell : Cell}
    (h : story.cell? id = some cell) (held : Holdings) :
    Framed settings story id cell held (render settings story id held)
      (textOf (bodyActs settings false (evaluateLines settings story 0 held cell.lines)))
      (lineEvents (evaluateLines settings story 0 held cell.lines)) where
  text := text_render settings story h held
  events := events_render settings story h held

theorem framed_render_withLines (settings : Settings) {story : Story} {id : CellId} {cell : Cell}
    (h : story.cell? id = some cell) (held : Holdings) (lines : List Line) :
    Framed settings story id cell held (render settings (story.withLines cell lines) id held)
      (textOf (bodyActs settings false (evaluateLines settings story 0 held lines)))
      (lineEvents (evaluateLines settings story 0 held lines)) := by
  have hpage := framed_render settings (cell?_withLines h lines) held
  rw [evaluateLines_withLines h] at hpage
  exact ⟨hpage.text, hpage.events⟩

/-- A page that ends at a place of its cell is the front of the whole page, in its links, in the
bytes that its lines write and in the events that they report.  A line that comes to a link adds
it to the page that ends in front of it, and the link carries the holdings with which the page
ends that ends with the line. -/
theorem render_front (settings : Settings) {story : Story} {id : CellId} {cell : Cell}
    (h : story.cell? id = some cell) (held : Holdings) :
    let page := render settings story id held
    let front := fun n => render settings (story.withLines cell (cell.lines.take n)) id held
    (∀ n, (front n).summary.links <+: page.summary.links ∧
      ∃ body told body' told', Framed settings story id cell held page body told ∧
        Framed settings story id cell held (front n) body' told' ∧
        bytesOf body' <+: bytesOf body ∧ told' <+: told) ∧
    ∀ i token broken caption,
      (evaluateLines settings story 0 held cell.lines)[i]?.map Evaluation.outcome =
          some (.link token broken caption) →
        (front (i + 1)).summary.links = (front i).summary.links ++ [token] ∧
          token.held = (front (i + 1)).summary.held := by
  intro page front
  have hpage : page.summary = _ := summary_render settings story h held
  have hfront : ∀ n, (front n).summary =
      ⟨id, true, heldAfter held ((evaluateLines settings story 0 held cell.lines).take n),
        linksOf ((evaluateLines settings story 0 held cell.lines).take n)⟩ := by
    intro n
    rw [← evaluateLines_take]
    exact summary_render_withLines h settings _ held
  constructor
  · intro n
    have hframed := framed_render_withLines settings h held (cell.lines.take n)
    rw [evaluateLines_take] at hframed
    have hes := List.take_append_drop n (evaluateLines settings story 0 held cell.lines)
    refine ⟨?_, _, _, _, _, framed_render settings h held, hframed, ?_, ?_⟩
    · rw [hpage, hfront]
      exact ⟨_, by rw [← linksOf_append, hes]⟩
    · refine bytesOf_textOf_isPrefix ?_
      have hacts := bodyActs_isPrefix settings
        ((evaluateLines settings story 0 held cell.lines).take n)
        ((evaluateLines settings story 0 held cell.lines).drop n) false
      rwa [hes] at hacts
    · exact (List.take_prefix n _).filterMap _
  · intro i token broken caption hi
    obtain ⟨e, he, houtcome⟩ := Option.map_eq_some_iff.mp hi
    have hlinks : e.outcome.links = [token] := by rw [houtcome]; rfl
    have hheld : token.held = e.held := by
      rw [getElem?_evaluateLines] at he
      obtain ⟨line, -, rfl⟩ := Option.map_eq_some_iff.mp he
      exact held_of_mem_links settings story (hlinks ▸ List.mem_singleton_self token)
    rw [hfront, hfront, List.take_add_one, he, Option.toList_some]
    refine ⟨?_, ?_⟩
    · rw [linksOf_append, ← hlinks]
      exact congrArg _ (List.flatMap_singleton ..)
    · rw [heldAfter_concat, hheld]

/-- Lines that nobody sees at the front, at the end and between two links; one line takes what
another gave, and the cell links to itself. -/
def ford : Cell :=
  ⟨"Start", some "The ford",
    [⟨["rope"], [], none, none, none, "Hold fast."⟩, ⟨["rope"], [], none, none, none, "Pull."⟩,
      ⟨[], ["coin"], some "coin", none, some "Start", "Pick up a coin"⟩,
      ⟨["rope"], [], none, none, none, "Let go."⟩, ⟨[], [], some "coin", none, none, "Another."⟩,
      ⟨["coin"], [], none, some "coin", some "Mill", ""⟩, .ofText "Water."]⟩

def fordStory : Story :=
  { Story.empty "A ford" .epoch with
    items := ⟨[⟨"coin", 0, "A coin"⟩, ⟨"rope", 1, "A rope"⟩], by decide, by decide, by decide⟩ }
    |>.insertCell ford

theorem render_front_ford :
    fordStory.cell? .start = some ford ∧
      (render .default fordStory .start .empty).summary.links =
        [⟨.start, ⟨1⟩⟩, ⟨.ofName "Mill", .empty⟩] ∧
      (render .default (fordStory.withLines ford (ford.lines.take 4)) .start
          .empty).summary.links <+:
        (render .default fordStory .start .empty).summary.links ∧
      (render .default (fordStory.withLines ford (ford.lines.take 3)) .start .empty).summary.held =
        ⟨1⟩ ∧
      (render .default (fordStory.withLines ford (ford.lines.take 6)) .start .empty).summary.held =
        .empty := by
  have hford : fordStory.cell? .start = some ford := by decide +kernel
  obtain ⟨hfront, hline⟩ := render_front .default hford .empty
  have hcoin := hline 2 ⟨.start, ⟨1⟩⟩ false "Pick up a coin" (by decide +kernel)
  have hmill := hline 5 ⟨.ofName "Mill", .empty⟩ true "[[BROKEN LINK]]" (by decide +kernel)
  exact ⟨hford, by decide +kernel, (hfront 4).1, hcoin.2.symm, hmill.2.symm⟩

end Page

end Gamebook
