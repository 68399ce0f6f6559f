/-
# Lines that show nothing leave nothing behind

A line is suppressed when its guards fail, its gift is refused or its loss is refused.  A
refused loss leaves the gift of its own line, so a line that gives and takes can be
suppressed and yet change what is held.  No line of a compiled story does both: there a
suppressed line leaves what it found (`held_evaluate_of_suppressed`).

Such lines can therefore be left out.  The page with all lines and the page with those
that are left are made side by side (`evaluateLines_shownLines`): at a suppressed line
only the first goes on, with the same holdings, and at every other line both go on with
the same outcome, though the line has another place in each.

Main statement: `render_without_suppressed`.
-/
import Gamebook.Proofs.Page.Conservation
import Gamebook.Proofs.Page.Excerpt
import Gamebook.Proofs.Source.Shape

namespace Gamebook.Page

/-! ## One line -/

theorem held_evaluate_of_suppressed (settings : Settings) {story : Story} {index : Nat}
    {line : Line} {held : Holdings} (hone : line.give = none ∨ line.take = none)
    (h : (evaluate settings story index line held).event.any (Event.suppresses index) = true) :
    (evaluate settings story index line held).held = held := by
  rcases verdicts story.items held line with
    hguards | ⟨hguards, item, hgift⟩ | ⟨hguards, hgift, item, hloss⟩ | hshown
  · rw [evaluate_of_barred settings hguards]
  · rw [evaluate_of_giftRefused settings hguards hgift]
  · -- what was refused is a loss, and so there was no gift
    have hgive : line.give = none :=
      hone.resolve_right fun htake => nomatch hloss.1.symm.trans htake
    rw [evaluate_of_lossRefused settings hguards hgift hloss]
    simp only [withGift, hgive, Option.bind_none]
  · exact absurd (h.symm.trans (not_suppressed_of_shown settings hshown)) (by decide)

section Line

variable (settings : Settings) (story : Story) (line : Line) (held : Holdings)

theorem outcome_present_reindex (index index' : Nat) :
    (present settings story index line held).outcome =
      (present settings story index' line held).outcome := by
  cases hl : line.linksTo with
  | none => simp only [present, hl]
  | some target => cases hc : story.cellNamed? target <;> simp only [present, hl, hc]

/-- The place of a line shows in what it reports and nowhere else. -/
theorem evaluate_reindex (index index' : Nat) :
    (evaluate settings story index line held).outcome =
        (evaluate settings story index' line held).outcome ∧
      (evaluate settings story index line held).held =
        (evaluate settings story index' line held).held := by
  rcases verdicts story.items held line with
    hguards | ⟨hguards, item, hgift⟩ | ⟨hguards, hgift, item, hloss⟩ | hshown
  · rw [evaluate_of_barred settings hguards, evaluate_of_barred settings hguards]
    exact ⟨rfl, rfl⟩
  · rw [evaluate_of_giftRefused settings hguards hgift,
      evaluate_of_giftRefused settings hguards hgift]
    exact ⟨rfl, rfl⟩
  · rw [evaluate_of_lossRefused settings hguards hgift hloss,
      evaluate_of_lossRefused settings hguards hgift hloss]
    exact ⟨rfl, rfl⟩
  · rw [evaluate_of_shown settings hshown, evaluate_of_shown settings hshown, present_held,
      present_held]
    exact ⟨outcome_present_reindex settings story line _ index index', rfl⟩

end Line

/-! ## All lines -/

/-- The lines that are left, of lines with their places, when those are left out that the events
say show nothing. -/
def shownLines (events : List Event) (ps : List (Line × Nat)) : List Line :=
  (ps.filter fun p => !suppressed events p.2).map Prod.fst

theorem shownLines_cons (events : List Event) (line : Line) (index : Nat)
    (ps : List (Line × Nat)) :
    shownLines events ((line, index) :: ps) =
      if suppressed events index then shownLines events ps
      else line :: shownLines events ps := by
  cases hs : suppressed events index <;> simp [shownLines, hs]

section Lines

variable {settings : Settings} {story : Story} {events : List Event}

/-- The lines that are left leave the same holdings and make the same of their outcomes, as long as
blanks make nothing. -/
theorem evaluateLines_shownLines {α : Type} {f : Outcome → List α} (hblank : f .blank = [])
    (lines : List Line) :
    ∀ {index : Nat} {held : Holdings} (index' : Nat),
      (∀ line ∈ lines, line.give = none ∨ line.take = none) →
      ReportsFrom index events (evaluateLines settings story index held lines) →
        heldAfter held (evaluateLines settings story index' held
            (shownLines events (lines.zipIdx index))) =
          heldAfter held (evaluateLines settings story index held lines) ∧
        (evaluateLines settings story index' held (shownLines events (lines.zipIdx index))).flatMap
            (fun e => f e.outcome) =
          (evaluateLines settings story index held lines).flatMap fun e => f e.outcome := by
  induction lines with
  | nil => exact fun _ _ _ => ⟨rfl, rfl⟩
  | cons line lines ih =>
      intro index held index' hone h
      have hreport := h.any_eq fun _ => Event.index?_of_suppresses
      have hrest := fun i => ih i (fun l hl => hone l (List.mem_cons_of_mem _ hl)) h.tail
      rw [List.zipIdx_cons, shownLines_cons, evaluateLines]
      cases hs : suppressed events index with
      | true =>
          have hsuppressed := hreport.symm.trans hs
          have hheld :=
            held_evaluate_of_suppressed settings (hone line List.mem_cons_self) hsuppressed
          have houtcome : (evaluate settings story index line held).outcome = .blank := by
            rw [outcome_evaluate, if_pos hsuppressed]
          have hrest := hrest index'
          rw [hheld] at hrest ⊢
          rw [if_pos rfl, List.flatMap_cons, houtcome, hblank]
          exact ⟨hrest.1.trans (by rw [heldAfter, hheld]), hrest.2⟩
      | false =>
          obtain ⟨houtcome, hheld⟩ := evaluate_reindex settings story line held index' index
          have hrest := hrest (index' + 1)
          rw [if_neg Bool.false_ne_true, evaluateLines, hheld, List.flatMap_cons, List.flatMap_cons,
            houtcome, hrest.2, heldAfter, hheld, heldAfter]
          exact ⟨hrest.1, rfl⟩

end Lines

/-! ## The page -/

/-- A cell none of whose lines both gives and takes comes to the same without the lines that are
suppressed. -/
theorem render_shownLines (settings : Settings) {story : Story} {id : CellId} {cell : Cell}
    (h : story.cell? id = some cell)
    (hone : ∀ line ∈ cell.lines, line.give = none ∨ line.take = none) (held : Holdings) :
    let page := render settings story id held
    let rest := render settings
      (story.withLines cell (shownLines page.events cell.lines.zipIdx)) id held
    rest.summary.held = page.summary.held ∧ rest.summary.links = page.summary.links ∧
      paragraphsOf rest.acts = paragraphsOf page.acts := by
  intro page rest
  have hreports : ReportsFrom 0 page.events (evaluateLines settings story 0 held cell.lines) :=
    reportsFrom_render h held
  have hpage : page.summary = _ := summary_render settings story h held
  have hrest : rest.summary = _ := summary_render_withLines h settings _ held
  refine ⟨?_, ?_, ?_⟩
  · rw [hpage, hrest]
    exact (evaluateLines_shownLines (f := Outcome.links) rfl cell.lines 0 hone hreports).1
  · rw [hpage, hrest]
    exact (evaluateLines_shownLines (f := Outcome.links) rfl cell.lines 0 hone hreports).2
  · have hparagraphs := evaluateLines_shownLines
      (f := fun outcome => (outcome.paragraph? settings).toList) rfl cell.lines 0 hone hreports
    rw [paragraphsOf_render settings h]
    exact (paragraphsOf_render_withLines h settings _ held).trans hparagraphs.2

/-- A line that does not both give and take leaves what is held as it was if it is suppressed.  No
line of a compiled story does both, so a page of such a story ends with the same holdings and has
the same links and the same paragraphs without the lines that are suppressed in it. -/
theorem render_without_suppressed (settings : Settings) :
    (∀ (story : Story) (index : Nat) (line : Line) (held : Holdings),
      line.give = none ∨ line.take = none →
      (evaluate settings story index line held).event.any (Event.suppresses index) = true →
        (evaluate settings story index line held).held = held) ∧
    ∀ (compiledAt : Timestamp) (source : String) (story : Story),
      (Source.compile compiledAt source).result = .ok story →
      ∀ (id : CellId) (cell : Cell) (held : Holdings), story.cell? id = some cell →
        let page := render settings story id held
        let rest := render settings
          (story.withLines cell (shownLines page.events cell.lines.zipIdx)) id held
        (∀ line ∈ cell.lines, line.give = none ∨ line.take = none) ∧
          rest.summary.held = page.summary.held ∧ rest.summary.links = page.summary.links ∧
            paragraphsOf rest.acts = paragraphsOf page.acts := by
  constructor
  · intro story index line held hone h
    exact held_evaluate_of_suppressed settings hone h
  · intro compiledAt source story hstory id cell held h
    obtain ⟨draft, events, hr, rfl, -⟩ := Source.exists_reached_of_result hstory
    have hone : ∀ line ∈ cell.lines, line.give = none ∨ line.take = none := fun line hline =>
      ((hr.wellShaped_close.cells id cell h).lines line hline).one_change
    exact ⟨hone, render_shownLines settings h hone held⟩

/-- Lines that are suppressed for each of the three reasons, between lines that are not. -/
def orchardSource : String :=
  "%pear
%rope
:Start
?rope Up.
!pear >Barn Look
&pear Pick
&pear More
@rope Drop
?pear >Barn Go"

/-- A second gift of what is held already. -/
def secondPear : Line := ⟨[], [], some "pear", none, none, "More"⟩

def orchardGate : Cell :=
  ⟨"Start", none,
    [⟨["rope"], [], none, none, none, "Up."⟩, ⟨[], ["pear"], none, none, some "Barn", "Look"⟩,
      ⟨[], [], some "pear", none, none, "Pick"⟩, secondPear,
      ⟨[], [], none, some "rope", none, "Drop"⟩, ⟨["pear"], [], none, none, some "Barn", "Go"⟩]⟩

theorem render_without_suppressed_orchard :
    ∃ story, (Source.compile .epoch orchardSource).result = .ok story ∧
      story.cell? .start = some orchardGate ∧
      (evaluate .default story 3 secondPear ⟨1⟩).event = some (.giveRefused 3 "pear") ∧
      (evaluate .default story 3 secondPear ⟨1⟩).held = ⟨1⟩ ∧
      (render .default story .start .empty).summary.links =
        [⟨.ofName "Barn", .empty⟩, ⟨.ofName "Barn", ⟨1⟩⟩] ∧
      (shownLines (render .default story .start .empty).events orchardGate.lines.zipIdx).map
          Line.text =
        ["Look", "Pick", "Go"] ∧
      (render .default (story.withLines orchardGate (shownLines
          (render .default story .start .empty).events orchardGate.lines.zipIdx)) .start
            .empty).summary.links =
        [⟨.ofName "Barn", .empty⟩, ⟨.ofName "Barn", ⟨1⟩⟩] := by
  have hread : (Source.compile .epoch orchardSource).result.toOption.map (fun story =>
        (story.cell? .start, (evaluate .default story 3 secondPear ⟨1⟩).event,
          (render .default story .start .empty).summary.links,
          (shownLines (render .default story .start .empty).events
            orchardGate.lines.zipIdx).map Line.text)) =
      some (some orchardGate, some (.giveRefused 3 "pear"),
        [⟨.ofName "Barn", .empty⟩, ⟨.ofName "Barn", ⟨1⟩⟩], ["Look", "Pick", "Go"]) := by
    decide +kernel
  obtain ⟨story, hs, hparts⟩ := Option.map_eq_some_iff.mp hread
  have hr := Source.toOption_eq_some_iff.mp hs
  simp only [Prod.mk.injEq] at hparts
  obtain ⟨hgate, hrefused, hlinks, htexts⟩ := hparts
  obtain ⟨hline, hcell⟩ := render_without_suppressed .default
  have hheld := hline story 3 secondPear ⟨1⟩ (Or.inr rfl) (by rw [hrefused]; rfl)
  obtain ⟨-, -, hsame, -⟩ := hcell .epoch orchardSource story hr .start orchardGate .empty hgate
  exact ⟨story, hr, hgate, hrefused, hheld, hlinks, htexts, hsame.trans hlinks⟩

end Gamebook.Page
