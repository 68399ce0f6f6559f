/-
# Tokens that were handed out before an edit

An author edits a story that readers are in the middle of.  A token that is out
already names a cell and a mask, and the mask speaks of bits, not of names.  If
the edit leaves the bits of the names that a cell uses, and the rules of its
lines, then entering the cell comes to the same: the same holdings at the end
and the same tokens in the links.  Title, labels, texts, descriptions, settings
and all other cells may be others.

The two pages are made side by side.  One line of the cell leaves the same
holdings and the same link in both (`evaluate_congr`), so all lines do
(`evaluateLines_congr`).

Main statement: `render_congr_of_contentEdit`.
-/
import Gamebook.Proofs.Page.Evaluation

namespace Gamebook

/-- Two lines have the same guards, effects and link; their texts may differ. -/
structure Line.SameRules (l l' : Line) : Prop where
  require : l.require = l'.require
  forbid : l.forbid = l'.forbid
  give : l.give = l'.give
  take : l.take = l'.take
  linksTo : l.linksTo = l'.linksTo

/-- The names of items that a line speaks of. -/
def Line.itemNames (line : Line) : List String :=
  line.require ++ line.forbid ++ line.give.toList ++ line.take.toList

namespace Page

/-- Both stories have the cell, and from the first to the second only content was edited. -/
structure ContentEdit (a b : Story) (id : CellId) (cell cell' : Cell) : Prop where
  cell_eq : a.cell? id = some cell
  cell_eq' : b.cell? id = some cell'
  names_prefix : a.items.items.map Item.name <+: b.items.items.map Item.name
  rules : List.Forall₂ Line.SameRules cell.lines cell'.lines
  stay_undefined : ∀ line ∈ cell.lines, ∀ name ∈ line.itemNames,
    a.items.lookup? name = none → b.items.lookup? name = none

/-! ## One line in two stories -/

section OneLine

variable {r r' : Registry} {line line' : Line}
variable (hr : line.SameRules line') (hn : ∀ name ∈ line.itemNames, Registry.AgreeOn r r' name)
include hr hn

theorem guardsHold_congr (held : Holdings) : guardsHold r held line = guardsHold r' held line' := by
  have hall : r.hasAll held line.require = r'.hasAll held line.require :=
    Registry.hasAll_congr (fun name h => hn name (by simp [Line.itemNames, h])) held
  have hany : r.hasAny held line.forbid = r'.hasAny held line.forbid :=
    Registry.hasAny_congr (fun name h => hn name (by simp [Line.itemNames, h])) held
  rw [guardsHold, guardsHold, ← hr.require, ← hr.forbid, hall, hany]

theorem afterGive_congr (index : Nat) (held : Holdings) :
    afterGive r index line held = afterGive r' index line' held := by
  rw [afterGive, afterGive, ← hr.give]
  cases hg : line.give with
  | none => rfl
  | some name =>
      have hagree : Registry.AgreeOn r r' name := hn name (by simp [Line.itemNames, hg])
      simp only [Registry.give?_congr hagree held]

theorem afterTake_congr (index : Nat) (held : Holdings) :
    afterTake r index line held = afterTake r' index line' held := by
  rw [afterTake, afterTake, ← hr.take]
  cases ht : line.take with
  | none => rfl
  | some name =>
      have hagree : Registry.AgreeOn r r' name := hn name (by simp [Line.itemNames, ht])
      simp only [Registry.take?_congr hagree held]

end OneLine

section Stories

variable {a b : Story} (sa sb : Settings)

/-- A line leaves the same holdings and the same link, if any, in both stories. -/
theorem evaluate_congr {line line' : Line} (hr : line.SameRules line')
    (hn : ∀ name ∈ line.itemNames, Registry.AgreeOn a.items b.items name) (index : Nat)
    (held : Holdings) :
    (evaluate sa a index line held).held = (evaluate sb b index line' held).held ∧
      (evaluate sa a index line held).outcome.links =
        (evaluate sb b index line' held).outcome.links := by
  rw [evaluate, evaluate, ← guardsHold_congr hr hn, ← afterGive_congr hr hn]
  cases guardsHold a.items held line with
  | false => exact ⟨rfl, rfl⟩
  | true =>
      cases afterGive a.items index line held with
      | error refusal => exact ⟨rfl, rfl⟩
      | ok given =>
          simp only [← afterTake_congr hr hn]
          cases afterTake a.items index line given with
          | error refusal => exact ⟨rfl, rfl⟩
          | ok kept =>
              -- only here do the stories differ: in the text, and in whether the link is broken
              show (present sa a index line kept).held = (present sb b index line' kept).held ∧
                (present sa a index line kept).outcome.links =
                  (present sb b index line' kept).outcome.links
              rw [present_held, present_held, links_present, links_present, hr.linksTo]
              exact ⟨rfl, rfl⟩

/-- The lines of a cell leave the same holdings and the same links in both stories. -/
theorem evaluateLines_congr {lines lines' : List Line}
    (hrules : List.Forall₂ Line.SameRules lines lines') :
    (∀ line ∈ lines, ∀ name ∈ line.itemNames, Registry.AgreeOn a.items b.items name) →
    ∀ index held,
      heldAfter held (evaluateLines sa a index held lines) =
          heldAfter held (evaluateLines sb b index held lines') ∧
        linksOf (evaluateLines sa a index held lines) =
          linksOf (evaluateLines sb b index held lines') := by
  induction hrules with
  | nil => exact fun _ _ _ => ⟨rfl, rfl⟩
  | @cons line line' lines lines' hr _ ih =>
      intro hn index held
      obtain ⟨hheld, hlink⟩ :=
        evaluate_congr sa sb hr (hn line List.mem_cons_self) index held
      obtain ⟨hend, hlinks⟩ := ih (fun l hl => hn l (List.mem_cons_of_mem _ hl)) (index + 1)
        (evaluate sa a index line held).held
      constructor
      · rw [heldAfter_evaluateLines_cons, heldAfter_evaluateLines_cons, hend, hheld]
      · rw [linksOf_evaluateLines_cons, linksOf_evaluateLines_cons, hlinks, hlink, hheld]

end Stories

/-! ## The page -/

/-- Whoever enters an edited cell, with whatever holdings, leaves it with the same holdings and
finds the same links as before the edit. -/
theorem render_congr_of_contentEdit {a b : Story} {id : CellId} {cell cell' : Cell}
    (h : ContentEdit a b id cell cell') (sa sb : Settings) (held : Holdings) :
    (render sa a id held).summary.held = (render sb b id held).summary.held ∧
      (render sa a id held).summary.links = (render sb b id held).summary.links := by
  have hagree : ∀ line ∈ cell.lines, ∀ name ∈ line.itemNames,
      Registry.AgreeOn a.items b.items name := by
    intro line hline name hname
    exact Registry.agreeOn_of_prefix h.names_prefix (h.stay_undefined line hline name hname)
  rw [summary_render sa a h.cell_eq, summary_render sb b h.cell_eq']
  exact evaluateLines_congr sa sb h.rules hagree 0 held

/-- A cell that asks for a lamp, hands one over, and asks for a rope. -/
def gate : Cell :=
  ⟨"Start", some "The gate",
    [⟨["lamp"], [], none, none, some "Cave", "Go in"⟩,
      ⟨[], ["lamp"], some "lamp", none, none, "Take the lamp"⟩,
      ⟨["rope"], [], none, none, some "Cliff", "Climb"⟩]⟩

/-- The cell with other texts. -/
def editedGate : Cell :=
  ⟨"Start", none,
    [⟨["lamp"], [], none, none, some "Cave", ""⟩,
      ⟨[], ["lamp"], some "lamp", none, none, "Pick up the lamp"⟩,
      ⟨["rope"], [], none, none, some "Cliff", "Climb down"⟩]⟩

/-- A story of the one cell, in which no rope is defined. -/
def walk : Story :=
  { Story.empty "A walk" .epoch with
    items := ⟨[⟨"lamp", 0, "A lamp"⟩], rfl, by decide, by decide⟩ }.insertCell gate

/-- The story with a further item behind the lamp, and with the cave written. -/
def editedWalk : Story :=
  ({ Story.empty "A longer walk" .epoch with
    items := ⟨[⟨"lamp", 0, "A brass lamp"⟩, ⟨"torch", 1, "A torch"⟩], rfl, by decide, by decide⟩ }
    |>.insertCell editedGate).insertCell ⟨"Cave", none, [.ofText "It is dark."]⟩

theorem render_congr_walk :
    ContentEdit walk editedWalk .start gate editedGate ∧
      (render .default walk .start ⟨1⟩).summary.links = [⟨.ofName "Cave", ⟨1⟩⟩] ∧
      (render .default editedWalk .start ⟨1⟩).summary.links = [⟨.ofName "Cave", ⟨1⟩⟩] := by
  have hedit : ContentEdit walk editedWalk .start gate editedGate := {
    cell_eq := by decide +kernel
    cell_eq' := by decide +kernel
    names_prefix := by decide
    rules := .cons ⟨rfl, rfl, rfl, rfl, rfl⟩
      (.cons ⟨rfl, rfl, rfl, rfl, rfl⟩ (.cons ⟨rfl, rfl, rfl, rfl, rfl⟩ .nil))
    stay_undefined := by decide }
  have hlinks : (render .default walk .start ⟨1⟩).summary.links = [⟨.ofName "Cave", ⟨1⟩⟩] := by
    decide +kernel
  refine ⟨hedit, hlinks, ?_⟩
  rw [← (render_congr_of_contentEdit hedit .default .default ⟨1⟩).2, hlinks]

end Page

end Gamebook
