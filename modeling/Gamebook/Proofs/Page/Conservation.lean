/-
# Items come and go one by one

What a reader holds changes at the lines of a cell and nowhere else: an item comes
where it is given and was not held, and goes where it is taken and was held.  Which
lines did so can be read off the events of the page, since a line that did not says
why.  So the events account for the holdings at the end.

`Runs` is an item's row of changes, from held or not at the start to held or not at
the end.  A line makes such a row (`runs_changesAt`), so all lines do
(`runs_changesOf`).  Bits that no item owns are kept by every line (`hasBit_evaluate`).

Main statement: `conserved_render`.
-/
import Gamebook.Proofs.Page.Acts
import Mathlib.Data.List.Chain

namespace Gamebook.Page

/-! ## Rows of changes -/

/-- An item comes to the reader or goes. -/
inductive Change where
  | give
  | take
deriving DecidableEq

/-- The changes lead from one to the other: only what is not held comes, and only what is held
goes. -/
inductive Runs : Bool → List Change → Bool → Prop
  | rest (b : Bool) : Runs b [] b
  | give {changes : List Change} {b : Bool} : Runs true changes b → Runs false (.give :: changes) b
  | take {changes : List Change} {b : Bool} : Runs false changes b → Runs true (.take :: changes) b

namespace Runs

variable {before between after : Bool} {changes later : List Change}

theorem append (h : Runs before changes between) (h' : Runs between later after) :
    Runs before (changes ++ later) after := by
  induction h with
  | rest => exact h'
  | give _ ih => exact .give (ih h')
  | take _ ih => exact .take (ih h')

theorem balance (h : Runs before changes after) :
    after.toNat + changes.count .take = before.toNat + changes.count .give := by
  induction h with
  | rest => rfl
  | give _ ih => simp at ih ⊢; omega
  | take _ ih => simp at ih ⊢; omega

/-- What is not held can only come, and what is held can only go. -/
theorem head? (h : Runs before changes after) {change : Change}
    (hchange : changes.head? = some change) : change = .give ↔ before = false := by
  cases h with
  | rest => exact nomatch hchange
  | give => obtain rfl := Option.some.inj hchange; simp
  | take => obtain rfl := Option.some.inj hchange; simp

/-- Changes take turns. -/
theorem isChain (h : Runs before changes after) : changes.IsChain (· ≠ ·) := by
  induction h with
  | rest => exact .nil
  | give h ih =>
      refine List.isChain_cons.mpr ⟨fun change hchange heq => ?_, ih⟩
      exact Bool.noConfusion ((h.head? hchange).mp heq.symm)
  | take h ih =>
      refine List.isChain_cons.mpr ⟨fun change hchange heq => ?_, ih⟩
      exact absurd (heq.trans ((h.head? hchange).mpr rfl)) (by decide)

theorem eq_of_nil (h : Runs before [] after) : before = after := by
  cases h
  rfl

end Runs

/-! ## What the events say of a line -/

/-- The item that a line gives or takes. -/
def Change.item? : Change → Line → Option String
  | give, line => line.give
  | take, line => line.take

/-- The event says that the line with an index did not make the change.  A refused loss leaves
the gift. -/
def Event.bars (change : Change) (index : Nat) : Event → Bool
  | .guardFailed i => i = index
  | .giveRefused i _ => i = index
  | .takeRefused i _ => change = .take && i = index
  | _ => false

/-- The line names the item for the change, and no event says that it did not make it. -/
def makes (events : List Event) (name : String) (change : Change) (p : Line × Nat) : Bool :=
  change.item? p.1 = some name && !events.any (Event.bars change p.2)

theorem makes_eq_true_iff {events : List Event} {name : String} {change : Change}
    {p : Line × Nat} :
    makes events name change p = true ↔
      change.item? p.1 = some name ∧ events.any (Event.bars change p.2) = false := by
  rw [makes, Bool.and_eq_true, decide_eq_true_eq, Bool.not_eq_true']

/-- The changes of an item at a line, which gives before it takes. -/
def changesAt (events : List Event) (name : String) (p : Line × Nat) : List Change :=
  [Change.give, .take].filter fun change => makes events name change p

/-- The changes of an item at lines with their indices. -/
def changesOf (events : List Event) (name : String) (ps : List (Line × Nat)) : List Change :=
  ps.flatMap (changesAt events name)

theorem changesAt_eq (events : List Event) (name : String) (p : Line × Nat) :
    changesAt events name p =
      (if makes events name .give p then [.give] else []) ++
        if makes events name .take p then [.take] else [] := by
  cases hg : makes events name .give p <;> cases ht : makes events name .take p <;>
    simp [changesAt, hg, ht]

theorem count_changesOf (events : List Event) (name : String) (change : Change)
    (ps : List (Line × Nat)) :
    (changesOf events name ps).count change = ps.countP (makes events name change) := by
  induction ps with
  | nil => rfl
  | cons p ps ih =>
      rw [changesOf, List.flatMap_cons, ← changesOf, List.count_append, ih, List.countP_cons,
        Nat.add_comm, changesAt_eq]
      cases change <;> cases makes events name .give p <;> cases makes events name .take p <;> rfl

theorem Event.index?_of_bars {change : Change} {index : Nat} {event : Event}
    (h : event.bars change index = true) : event.index? = some index := by
  cases event <;> simp_all [Event.bars, Event.index?]

/-! ## What a line reports stands among the events of its page -/

/-- Of the lines from an index on the events say what the evaluations report. -/
def ReportsFrom (index : Nat) (events : List Event) (es : List Evaluation) : Prop :=
  ∀ event i, event.index? = some i → index ≤ i → (event ∈ events ↔ event ∈ lineEvents es)

section Reports

variable {settings : Settings} {story : Story} {events : List Event} {index : Nat} {line : Line}
  {lines : List Line} {held : Holdings}

theorem reportsFrom_render {id : CellId} {cell : Cell} (h : story.cell? id = some cell)
    (held : Holdings) :
    ReportsFrom 0 (render settings story id held).events
      (evaluateLines settings story 0 held cell.lines) := by
  exact fun event i hi _ => mem_events_render settings story h hi

/-- Only the line itself reports under its index. -/
theorem ReportsFrom.any_eq
    (h : ReportsFrom index events (evaluateLines settings story index held (line :: lines)))
    {p : Event → Bool} (hp : ∀ event, p event = true → event.index? = some index) :
    events.any p = (evaluate settings story index line held).event.any p := by
  refine any_eq_any_option fun event hpe => ?_
  have hi := hp event hpe
  rw [h event index hi (Nat.le_refl _), evaluateLines, lineEvents_cons, List.mem_append,
    Option.mem_toList]
  refine ⟨fun he => he.resolve_right fun hlater => ?_, Or.inl⟩
  obtain ⟨i, hi', hle, -⟩ := index?_of_mem_lineEvents settings story lines hlater
  obtain rfl := Option.some.inj (hi.symm.trans hi')
  exact absurd hle (Nat.not_succ_le_self _)

theorem ReportsFrom.tail
    (h : ReportsFrom index events (evaluateLines settings story index held (line :: lines))) :
    ReportsFrom (index + 1) events (evaluateLines settings story (index + 1)
      (evaluate settings story index line held).held lines) := by
  intro event i hi hle
  rw [h event i hi (Nat.le_of_succ_le hle), evaluateLines, lineEvents_cons, List.mem_append]
  refine ⟨fun he => he.resolve_left fun hown => ?_, Or.inr⟩
  have hindex := index?_of_event settings story (Option.mem_toList.mp hown)
  obtain rfl := Option.some.inj (hi.symm.trans hindex)
  exact absurd hle (Nat.not_succ_le_self _)

end Reports

/-! ## One line -/

section Line

variable {items : Registry} {item other : Item}

/-- An item is held after another one was handed over as before, unless the two are one. -/
theorem holds_insert (hitem : item ∈ items.items) (hother : other ∈ items.items)
    (held : Holdings) :
    (held.insert other).holds item = (held.holds item || decide (other = item)) := by
  rw [Holdings.holds_eq (Registry.bit_lt hitem), Holdings.holds_eq (Registry.bit_lt hitem),
    Holdings.hasBit_insert (Registry.bit_lt hother)]
  simp only [Registry.bit_inj hother hitem]

theorem holds_erase (hitem : item ∈ items.items) (hother : other ∈ items.items)
    (held : Holdings) :
    (held.erase other).holds item = (held.holds item && !decide (other = item)) := by
  rw [Holdings.holds_eq (Registry.bit_lt hitem), Holdings.holds_eq (Registry.bit_lt hitem),
    Holdings.hasBit_erase (Registry.bit_lt hother)]
  simp only [Registry.bit_inj hother hitem]

variable {index : Nat} {line : Line} {held given kept : Holdings}

theorem runs_afterGive (hitem : item ∈ items.items)
    (h : afterGive items index line held = .ok given) :
    Runs (held.holds item) (if line.give = some item.name then [.give] else [])
      (given.holds item) := by
  rcases afterGive_eq_ok h with ⟨hg, rfl⟩ | ⟨name, other, hg, hl, hheld, rfl⟩
  · rw [hg, if_neg (by simp)]
    exact .rest _
  · obtain ⟨hother, rfl⟩ := Registry.lookup?_eq_some_iff.mp hl
    rw [hg, holds_insert hitem hother]
    by_cases hsame : other = item
    · subst hsame
      rw [hheld, if_pos rfl]
      simpa using Runs.give (.rest true)
    · have hname : other.name ≠ item.name := mt (Registry.name_inj hother hitem).mp hsame
      rw [if_neg (by simpa using hname), decide_eq_false hsame, Bool.or_false]
      exact .rest _

theorem runs_afterTake (hitem : item ∈ items.items)
    (h : afterTake items index line held = .ok kept) :
    Runs (held.holds item) (if line.take = some item.name then [.take] else [])
      (kept.holds item) := by
  rcases afterTake_eq_ok h with ⟨ht, rfl⟩ | ⟨name, other, ht, hl, hheld, rfl⟩
  · rw [ht, if_neg (by simp)]
    exact .rest _
  · obtain ⟨hother, rfl⟩ := Registry.lookup?_eq_some_iff.mp hl
    rw [ht, holds_erase hitem hother]
    by_cases hsame : other = item
    · subst hsame
      rw [hheld, if_pos rfl]
      simpa using Runs.take (.rest false)
    · have hname : other.name ≠ item.name := mt (Registry.name_inj hother hitem).mp hsame
      rw [if_neg (by simpa using hname), decide_eq_false hsame, Bool.not_false, Bool.and_true]
      exact .rest _

end Line

section Story

variable {settings : Settings} {story : Story} {events : List Event} {item : Item}

/-- The changes that the events tell of a line are those it makes. -/
theorem runs_changesAt (hitem : item ∈ story.items.items) {index : Nat} {line : Line}
    {held : Holdings}
    (hevents : ∀ change, events.any (Event.bars change index) =
      (evaluate settings story index line held).event.any (Event.bars change index)) :
    Runs (held.holds item) (changesAt events item.name (line, index))
      ((evaluate settings story index line held).held.holds item) := by
  simp only [changesAt_eq, makes_eq_true_iff, hevents, Change.item?]
  rcases evaluate_cases settings story index line held with
    ⟨-, he⟩ | ⟨-, refusal, hrefusal, he⟩ | ⟨-, given, refusal, hgiven, hrefusal, he⟩ |
    ⟨-, given, kept, hgiven, hkept, he⟩
  · rw [he]
    simpa [Event.bars] using Runs.rest (held.holds item)
  · obtain ⟨name, rfl⟩ := afterGive_eq_error hrefusal
    rw [he]
    simpa [Event.bars] using Runs.rest (held.holds item)
  · -- the gift was made before the loss was refused, and it stays made
    obtain ⟨name, rfl⟩ := afterTake_eq_error hrefusal
    rw [he]
    simpa [Event.bars] using runs_afterGive hitem hgiven
  · have hnone : ∀ change, (present settings story index line kept).event.any
        (Event.bars change index) = false := by
      intro change
      cases hpresent : (present settings story index line kept).event with
      | none => rfl
      | some event =>
          obtain ⟨target, -, -, rfl⟩ := (event_present_eq_some_iff settings story).mp hpresent
          rfl
    rw [he, present_held]
    simpa [hnone] using
      (runs_afterGive hitem hgiven).append (runs_afterTake hitem hkept)

/-- The changes that the events tell of lines are those they make. -/
theorem runs_changesOf (hitem : item ∈ story.items.items) (lines : List Line) :
    ∀ {index : Nat} {held : Holdings},
      ReportsFrom index events (evaluateLines settings story index held lines) →
        Runs (held.holds item) (changesOf events item.name (lines.zipIdx index))
          ((heldAfter held (evaluateLines settings story index held lines)).holds item) := by
  induction lines with
  | nil => exact fun _ => .rest _
  | cons line lines ih =>
      intro index held h
      have hline := runs_changesAt hitem fun _ => h.any_eq fun _ => Event.index?_of_bars
      rw [List.zipIdx_cons, changesOf, List.flatMap_cons, ← changesOf,
        heldAfter_evaluateLines_cons]
      exact hline.append (ih h.tail)

/-! ## Bits without an item -/

theorem hasBit_afterGive {items : Registry} {i index : Nat} {line : Line} {held given : Holdings}
    (hi : ∀ item ∈ items.items, item.bit ≠ i) (h : afterGive items index line held = .ok given) :
    given.hasBit i = held.hasBit i := by
  rcases afterGive_eq_ok h with ⟨-, rfl⟩ | ⟨name, item, -, hl, -, rfl⟩
  · rfl
  · have hitem := (Registry.lookup?_eq_some_iff.mp hl).1
    rw [Holdings.hasBit_insert (Registry.bit_lt hitem), decide_eq_false (hi item hitem),
      Bool.or_false]

theorem hasBit_afterTake {items : Registry} {i index : Nat} {line : Line} {held kept : Holdings}
    (hi : ∀ item ∈ items.items, item.bit ≠ i) (h : afterTake items index line held = .ok kept) :
    kept.hasBit i = held.hasBit i := by
  rcases afterTake_eq_ok h with ⟨-, rfl⟩ | ⟨name, item, -, hl, -, rfl⟩
  · rfl
  · have hitem := (Registry.lookup?_eq_some_iff.mp hl).1
    rw [Holdings.hasBit_erase (Registry.bit_lt hitem), decide_eq_false (hi item hitem),
      Bool.not_false, Bool.and_true]

theorem hasBit_evaluate {i : Nat} (hi : ∀ item ∈ story.items.items, item.bit ≠ i) (line : Line)
    (index : Nat) (held : Holdings) :
    (evaluate settings story index line held).held.hasBit i = held.hasBit i := by
  rcases evaluate_cases settings story index line held with
    ⟨-, he⟩ | ⟨-, refusal, -, he⟩ | ⟨-, given, refusal, hgiven, -, he⟩ |
    ⟨-, given, kept, hgiven, hkept, he⟩
  · rw [he]
  · rw [he]
  · rw [he]
    exact hasBit_afterGive hi hgiven
  · rw [he, present_held, hasBit_afterTake hi hkept, hasBit_afterGive hi hgiven]

end Story

/-! ## Pages -/

/-- The lines that give and take an item account for whether it is held at the end; they take
turns, and begin with a gift if it was not held.  All bits but those of items that came or went
are as they were. -/
theorem conserved_render (settings : Settings) {story : Story} {id : CellId} {cell : Cell}
    (h : story.cell? id = some cell) (held : Holdings) :
    let page := render settings story id held
    let lines := cell.lines.zipIdx
    (∀ item ∈ story.items.items,
      ((page.summary.held.holds item).toNat : Int) = (held.holds item).toNat +
          lines.countP (makes page.events item.name .give) -
          lines.countP (makes page.events item.name .take) ∧
        (changesOf page.events item.name lines).IsChain (· ≠ ·) ∧
        ∀ change, (changesOf page.events item.name lines).head? = some change →
          (change = .give ↔ held.holds item = false)) ∧
    ∀ i, (∀ item ∈ story.items.items, item.bit = i → changesOf page.events item.name lines = []) →
      page.summary.held.hasBit i = held.hasBit i := by
  intro page lines
  have hheld : page.summary.held =
      heldAfter held (evaluateLines settings story 0 held cell.lines) :=
    congrArg Summary.held (summary_render settings story h held)
  have hruns : ∀ item ∈ story.items.items, Runs (held.holds item)
      (changesOf page.events item.name lines) (page.summary.held.holds item) := by
    intro item hitem
    rw [hheld]
    exact runs_changesOf hitem cell.lines (reportsFrom_render h held)
  constructor
  · intro item hitem
    have hrun := hruns item hitem
    have hbalance := hrun.balance
    rw [count_changesOf, count_changesOf] at hbalance
    exact ⟨by omega, hrun.isChain, fun change => hrun.head?⟩
  · intro i hi
    by_cases hitem : ∃ item ∈ story.items.items, item.bit = i
    · obtain ⟨item, hitem, rfl⟩ := hitem
      have hrun := hruns item hitem
      rw [hi item hitem rfl] at hrun
      rw [← Holdings.holds_eq (Registry.bit_lt hitem), ← Holdings.holds_eq (Registry.bit_lt hitem)]
      exact hrun.eq_of_nil.symm
    · have hno : ∀ item ∈ story.items.items, item.bit ≠ i :=
        fun item hmem hbit => hitem ⟨item, hmem, hbit⟩
      have hkeeps : ∀ line ∈ cell.lines, ∀ index held', held'.hasBit i = held.hasBit i →
          (evaluate settings story index line held').held.hasBit i = held.hasBit i :=
        fun line _ index held' hb => (hasBit_evaluate hno line index held').trans hb
      rw [hheld]
      exact (evaluateLines_invariant settings story hkeeps 0 held rfl).1

/-- Two coins lie about, of which the second cannot be taken up as well.  One pays for a lamp, and
then there is none for the toll, so that the rope given with it is all that comes of that line. -/
def tollCell : Cell :=
  ⟨"Start", none,
    [⟨[], [], some "coin", none, none, "A coin."⟩, ⟨[], [], some "coin", none, none, "Another."⟩,
      ⟨[], ["lamp"], some "lamp", some "coin", none, "A lamp for a coin."⟩,
      ⟨[], [], some "rope", some "coin", none, "A rope, and the toll."⟩]⟩

def tollbridge : Story :=
  { Story.empty "A bridge" .epoch with
    items := ⟨[⟨"coin", 0, "A coin"⟩, ⟨"lamp", 1, "A lamp"⟩, ⟨"rope", 2, "A rope"⟩], by decide,
      by decide, by decide⟩ }.insertCell tollCell

theorem conserved_render_tollbridge :
    tollbridge.cell? .start = some tollCell ∧
      (∀ item ∈ tollbridge.items.items,
        (render .default tollbridge .start ⟨128⟩).summary.held.holds item =
          !decide (item.name = "coin")) ∧
      (render .default tollbridge .start ⟨128⟩).summary.held.hasBit 7 = true := by
  have hcell : tollbridge.cell? .start = some tollCell := by decide +kernel
  have hcounts : ∀ item ∈ tollbridge.items.items,
      (Holdings.mk 128).holds item = false ∧
        tollCell.lines.zipIdx.countP
          (makes (render .default tollbridge .start ⟨128⟩).events item.name .give) = 1 ∧
        tollCell.lines.zipIdx.countP
            (makes (render .default tollbridge .start ⟨128⟩).events item.name .take) =
          (decide (item.name = "coin")).toNat := by decide +kernel
  have hbits : ∀ item ∈ tollbridge.items.items, item.bit ≠ 7 := by decide +kernel
  obtain ⟨hitems, hkept⟩ := conserved_render .default hcell ⟨128⟩
  refine ⟨hcell, fun item hitem => ?_, ?_⟩
  · obtain ⟨hbalance, -⟩ := hitems item hitem
    obtain ⟨hstart, hgives, htakes⟩ := hcounts item hitem
    rw [hstart, hgives, htakes] at hbalance
    generalize (render .default tollbridge .start ⟨128⟩).summary.held.holds item = last
      at hbalance ⊢
    generalize decide (item.name = "coin") = spent at hbalance ⊢
    cases last <;> cases spent <;> simp at hbalance ⊢
  · rw [hkept 7 fun item hitem hbit => absurd hbit (hbits item hitem)]
    decide +kernel

end Gamebook.Page
