/-
# What a line can do

A line ends in one of four ways: its guards fail, its gift is refused, its loss
is refused, or it is presented with the holdings that gift and loss leave.  A
link carries the holdings its own line leaves, so what every line keeps holds
at the end of the cell and in every link on the way.

Main statements: `evaluate_cases`, the four ways; `index?_of_event`, what a line
reports names the line; `evaluateLines_invariant`, what every line keeps.
-/
import Gamebook.Page.Render
import Gamebook.Proofs.Registry.Bits

namespace Gamebook.Page

variable (settings : Settings) (story : Story)

/-! ## One line -/

@[simp] theorem present_held (index : Nat) (line : Line) (held : Holdings) :
    (present settings story index line held).held = held := by
  cases hl : line.linksTo with
  | none => rw [present, hl]
  | some target => cases hc : story.cellNamed? target <;> simp only [present, hl, hc]

/-- A presented line has a token if it links anywhere, whether or not there is such a cell. -/
theorem links_present (index : Nat) (line : Line) (held : Holdings) :
    (present settings story index line held).outcome.links =
      (line.linksTo.map fun target => ⟨.ofName target, held⟩).toList := by
  cases hl : line.linksTo with
  | none => by_cases ht : line.text = "" <;> simp [present, hl, ht, Outcome.links]
  | some target =>
      cases hc : story.cellNamed? target <;> simp [present, hl, hc, Outcome.links]

theorem evaluate_cases (index : Nat) (line : Line) (held : Holdings) :
    (guardsHold story.items held line = false ∧
      evaluate settings story index line held = ⟨some (.guardFailed index), .blank, held⟩) ∨
    (guardsHold story.items held line = true ∧
      ∃ refusal, afterGive story.items index line held = .error refusal ∧
        evaluate settings story index line held = ⟨some refusal, .blank, held⟩) ∨
    (guardsHold story.items held line = true ∧
      ∃ given refusal, afterGive story.items index line held = .ok given ∧
        afterTake story.items index line given = .error refusal ∧
        evaluate settings story index line held = ⟨some refusal, .blank, given⟩) ∨
    (guardsHold story.items held line = true ∧
      ∃ given kept, afterGive story.items index line held = .ok given ∧
        afterTake story.items index line given = .ok kept ∧
        evaluate settings story index line held = present settings story index line kept) := by
  unfold evaluate
  cases hg : guardsHold story.items held line with
  | false => exact Or.inl ⟨rfl, rfl⟩
  | true =>
      refine Or.inr ?_
      cases hgive : afterGive story.items index line held with
      | error refusal => exact Or.inl ⟨rfl, refusal, rfl, rfl⟩
      | ok given =>
          refine Or.inr ?_
          cases htake : afterTake story.items index line given with
          | error refusal => exact Or.inl ⟨rfl, given, refusal, rfl, htake, by simp [htake]⟩
          | ok kept => exact Or.inr ⟨rfl, given, kept, rfl, htake, by simp [htake]⟩

/-- A token carries the holdings that its line leaves. -/
theorem held_of_mem_links {index : Nat} {line : Line} {held : Holdings} {t : Token}
    (h : t ∈ (evaluate settings story index line held).outcome.links) :
    t.held = (evaluate settings story index line held).held := by
  rcases evaluate_cases settings story index line held with
    ⟨-, he⟩ | ⟨-, refusal, -, he⟩ | ⟨-, given, refusal, -, -, he⟩ | ⟨-, given, kept, -, -, he⟩
  · rw [he] at h; exact absurd h List.not_mem_nil
  · rw [he] at h; exact absurd h List.not_mem_nil
  · rw [he] at h; exact absurd h List.not_mem_nil
  · rw [he, links_present] at h
    rw [he, present_held]
    obtain ⟨target, -, rfl⟩ := Option.map_eq_some_iff.mp (Option.mem_toList.mp h)
    rfl

/-- A gift changes nothing or sets the bit of the item it names. -/
theorem afterGive_eq_ok {items : Registry} {index : Nat} {line : Line} {held given : Holdings}
    (h : afterGive items index line held = .ok given) :
    (line.give = none ∧ given = held) ∨
      ∃ name item, line.give = some name ∧ items.lookup? name = some item ∧
        held.holds item = false ∧ given = held.insert item := by
  unfold afterGive at h
  cases hg : line.give with
  | none =>
      rw [hg] at h
      exact Or.inl ⟨rfl, (Except.ok.inj h).symm⟩
  | some name =>
      simp only [hg] at h
      cases hn : items.give? held name with
      | none => rw [hn] at h; exact absurd h (by simp)
      | some next =>
          rw [hn] at h
          obtain ⟨item, hl, hh, rfl⟩ := Registry.give?_eq_some_iff.mp hn
          exact Or.inr ⟨name, item, rfl, hl, hh, (Except.ok.inj h).symm⟩

/-- A loss changes nothing or clears the bit of the item it names. -/
theorem afterTake_eq_ok {items : Registry} {index : Nat} {line : Line} {held kept : Holdings}
    (h : afterTake items index line held = .ok kept) :
    (line.take = none ∧ kept = held) ∨
      ∃ name item, line.take = some name ∧ items.lookup? name = some item ∧
        held.holds item = true ∧ kept = held.erase item := by
  unfold afterTake at h
  cases ht : line.take with
  | none =>
      rw [ht] at h
      exact Or.inl ⟨rfl, (Except.ok.inj h).symm⟩
  | some name =>
      simp only [ht] at h
      cases hn : items.take? held name with
      | none => rw [hn] at h; exact absurd h (by simp)
      | some next =>
          rw [hn] at h
          obtain ⟨item, hl, hh, rfl⟩ := Registry.take?_eq_some_iff.mp hn
          exact Or.inr ⟨name, item, rfl, hl, hh, (Except.ok.inj h).symm⟩

theorem afterGive_eq_error {items : Registry} {index : Nat} {line : Line} {held : Holdings}
    {refusal : Event} (h : afterGive items index line held = .error refusal) :
    ∃ item, refusal = .giveRefused index item := by
  unfold afterGive at h
  cases hg : line.give with
  | none => rw [hg] at h; exact absurd h (by simp)
  | some name =>
      simp only [hg] at h
      cases hn : items.give? held name with
      | none => rw [hn] at h; exact ⟨name, (Except.error.inj h).symm⟩
      | some next => rw [hn] at h; exact absurd h (by simp)

theorem afterTake_eq_error {items : Registry} {index : Nat} {line : Line} {held : Holdings}
    {refusal : Event} (h : afterTake items index line held = .error refusal) :
    ∃ item, refusal = .takeRefused index item := by
  unfold afterTake at h
  cases ht : line.take with
  | none => rw [ht] at h; exact absurd h (by simp)
  | some name =>
      simp only [ht] at h
      cases hn : items.take? held name with
      | none => rw [hn] at h; exact ⟨name, (Except.error.inj h).symm⟩
      | some next => rw [hn] at h; exact absurd h (by simp)

/-- The line that an event names. -/
def Event.index? : Event → Option Nat
  | .guardFailed index => some index
  | .giveRefused index _ => some index
  | .takeRefused index _ => some index
  | .brokenLink index _ => some index
  | .cellEntered .. | .unknownCell _ | .finished .. => none

/-- A presented line reports that it links to no cell, and nothing else. -/
theorem event_present_eq_some_iff {index : Nat} {line : Line} {held : Holdings} {event : Event} :
    (present settings story index line held).event = some event ↔
      ∃ target, line.linksTo = some target ∧ story.cellNamed? target = none ∧
        event = .brokenLink index target := by
  cases hl : line.linksTo with
  | none => simp [present, hl]
  | some target =>
      cases hc : story.cellNamed? target with
      | none => simp [present, hl, hc, eq_comm]
      | some cell => simp [present, hl, hc]

/-- What a line reports names the line. -/
theorem index?_of_event {index : Nat} {line : Line} {held : Holdings} {event : Event}
    (h : (evaluate settings story index line held).event = some event) :
    event.index? = some index := by
  rcases evaluate_cases settings story index line held with
    ⟨-, he⟩ | ⟨-, refusal, hgive, he⟩ | ⟨-, given, refusal, -, htake, he⟩ |
    ⟨-, given, kept, -, -, he⟩
  · rw [he] at h
    obtain rfl := Option.some.inj h
    rfl
  · rw [he] at h
    obtain rfl := Option.some.inj h
    obtain ⟨item, rfl⟩ := afterGive_eq_error hgive
    rfl
  · rw [he] at h
    obtain rfl := Option.some.inj h
    obtain ⟨item, rfl⟩ := afterTake_eq_error htake
    rfl
  · rw [he] at h
    obtain ⟨target, -, -, rfl⟩ := (event_present_eq_some_iff settings story).mp h
    rfl

/-! ## All lines of a cell -/

theorem heldAfter_evaluateLines_cons (index : Nat) (held : Holdings) (line : Line)
    (lines : List Line) :
    heldAfter held (evaluateLines settings story index held (line :: lines)) =
      heldAfter (evaluate settings story index line held).held
        (evaluateLines settings story (index + 1) (evaluate settings story index line held).held
          lines) := rfl

theorem linksOf_evaluateLines_cons (index : Nat) (held : Holdings) (line : Line)
    (lines : List Line) :
    linksOf (evaluateLines settings story index held (line :: lines)) =
      (evaluate settings story index line held).outcome.links ++
        linksOf (evaluateLines settings story (index + 1)
          (evaluate settings story index line held).held lines) := rfl

/-- What every line keeps holds at the end and in every link on the way. -/
theorem evaluateLines_invariant {P : Holdings → Prop} {lines : List Line}
    (hstep : ∀ line ∈ lines, ∀ index held, P held →
      P (evaluate settings story index line held).held) :
    ∀ index held, P held →
      P (heldAfter held (evaluateLines settings story index held lines)) ∧
        ∀ t ∈ linksOf (evaluateLines settings story index held lines), P t.held := by
  induction lines with
  | nil => exact fun index held h => ⟨h, fun t ht => absurd ht List.not_mem_nil⟩
  | cons line lines ih =>
      intro index held h
      have hline := hstep line List.mem_cons_self index held h
      obtain ⟨hend, hlinks⟩ := ih (fun l hl => hstep l (List.mem_cons_of_mem _ hl)) (index + 1)
        (evaluate settings story index line held).held hline
      refine ⟨hend, fun t ht => ?_⟩
      rw [linksOf_evaluateLines_cons, List.mem_append] at ht
      rcases ht with ht | ht
      · rw [held_of_mem_links settings story ht]
        exact hline
      · exact hlinks t ht

theorem summary_render {id : CellId} {cell : Cell} (h : story.cell? id = some cell)
    (held : Holdings) :
    (render settings story id held).summary =
      ⟨id, true, heldAfter held (evaluateLines settings story 0 held cell.lines),
        linksOf (evaluateLines settings story 0 held cell.lines)⟩ := by
  rw [render, h]
  rfl

end Gamebook.Page
