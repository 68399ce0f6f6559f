/-
# The account that events give of a page

Whoever hears the events of a page and nothing else learns what became of each line.
A line is looked at with the holdings that the lines in front of it leave: its guards
first, then its gift, its loss and its link, and it tells of the first that fails.  A
line that tells of one of the first three shows nothing and leads nowhere; every
other line shows what it has to show, and leads where it links to.

What a line tells and leaves is said by `Tells` and `Leaves` in terms of names defined
and items held.  `verdicts` are the ways a line can end, and `leaves_evaluate` and
`event_evaluate_eq_some_iff` compare evaluation with them, once; all else is case
analysis over these.  An event of a page is then that of the line it names
(`mem_lineEvents_iff`), and acts and links are those of the lines one after the other.

Main statement: `account_of_render`.
-/
import Gamebook.Proofs.Page.Acts
import Mathlib.Data.List.Basic

namespace Gamebook

namespace Page

/-! ## What becomes of a line -/

section Verdicts

variable (items : Registry) (held : Holdings) (line : Line)

/-- A required item is undefined or not held, or a forbidden one is defined and held. -/
def Barred : Prop :=
  (∃ name ∈ line.require, ¬ items.Has held name) ∨ ∃ name ∈ line.forbid, items.Has held name

/-- The line gives an item that is undefined or already held. -/
def GiftRefused (item : String) : Prop :=
  line.give = some item ∧ (items.lookup? item = none ∨ items.Has held item)

/-- The line takes an item that is undefined or not held. -/
def LossRefused (item : String) : Prop :=
  line.take = some item ∧ ¬ items.Has held item

/-- What is held when the item that the line gives is handed over. -/
def withGift : Holdings :=
  match line.give.bind items.lookup? with
  | some item => held.insert item
  | none => held

/-- What is held when the item that the line takes is gone. -/
def withoutLoss : Holdings :=
  match line.take.bind items.lookup? with
  | some item => held.erase item
  | none => held

/-- Guards, gift and loss of the line all pass.  The loss is asked for after the gift. -/
structure Shown : Prop where
  guards : ¬ Barred items held line
  gift : ∀ item, ¬ GiftRefused items held line item
  loss : ∀ item, ¬ LossRefused items (withGift items held line) line item

/-- The holdings that a line leaves.  A refused loss leaves the gift. -/
inductive Leaves : Holdings → Prop
  | barred : Barred items held line → Leaves held
  | giftRefused {item : String} :
      ¬ Barred items held line → GiftRefused items held line item → Leaves held
  | lossRefused {item : String} :
      ¬ Barred items held line → (∀ item, ¬ GiftRefused items held line item) →
        LossRefused items (withGift items held line) line item →
          Leaves (withGift items held line)
  | shown :
      Shown items held line → Leaves (withoutLoss items (withGift items held line) line)

end Verdicts

/-- What a line with an index tells: the first of its four checks that fails. -/
inductive Tells (story : Story) (index : Nat) (line : Line) (held : Holdings) : Event → Prop
  | guardFailed :
      Barred story.items held line → Tells story index line held (.guardFailed index)
  | giveRefused {item : String} :
      ¬ Barred story.items held line → GiftRefused story.items held line item →
        Tells story index line held (.giveRefused index item)
  | takeRefused {item : String} :
      ¬ Barred story.items held line → (∀ item, ¬ GiftRefused story.items held line item) →
        LossRefused story.items (withGift story.items held line) line item →
          Tells story index line held (.takeRefused index item)
  | brokenLink {target : String} :
      Shown story.items held line → line.linksTo = some target →
        story.cellNamed? target = none → Tells story index line held (.brokenLink index target)

/-! ## Evaluation and verdicts -/

section Line

variable {items : Registry} {index : Nat} {line : Line} {held given kept : Holdings}

theorem guardsHold_eq_false_iff : guardsHold items held line = false ↔ Barred items held line := by
  rw [guardsHold, Bool.and_eq_false_iff, Bool.not_eq_false', Registry.hasAny_eq_true_iff,
    ← Bool.not_eq_true, Registry.hasAll_eq_true_iff]
  simp only [Barred, not_forall, exists_prop]

theorem guardsHold_eq_true_iff :
    guardsHold items held line = true ↔ ¬ Barred items held line := by
  rw [← guardsHold_eq_false_iff, Bool.not_eq_false]

theorem afterGive_of_giftRefused {item : String} (h : GiftRefused items held line item) :
    afterGive items index line held = .error (.giveRefused index item) := by
  obtain ⟨hg, hl | ⟨other, hl, hh⟩⟩ := h
  · simp [afterGive, Registry.give?, hg, hl]
  · simp [afterGive, Registry.give?, hg, hl, hh]

theorem afterGive_of_not_giftRefused (h : ∀ item, ¬ GiftRefused items held line item) :
    afterGive items index line held = .ok (withGift items held line) := by
  cases hg : line.give with
  | none => simp [afterGive, withGift, hg]
  | some name =>
      cases hl : items.lookup? name with
      | none => exact absurd ⟨hg, Or.inl hl⟩ (h name)
      | some item =>
          have hh : held.holds item = false :=
            Bool.eq_false_iff.mpr fun hh => h name ⟨hg, Or.inr ⟨item, hl, hh⟩⟩
          simp [afterGive, withGift, Registry.give?, hg, hl, hh]

theorem afterTake_of_lossRefused {item : String} (h : LossRefused items held line item) :
    afterTake items index line held = .error (.takeRefused index item) := by
  obtain ⟨ht, hnot⟩ := h
  cases hl : items.lookup? item with
  | none => simp [afterTake, Registry.take?, ht, hl]
  | some other =>
      have hh : held.holds other = false :=
        Bool.eq_false_iff.mpr fun hh => hnot ⟨other, hl, hh⟩
      simp [afterTake, Registry.take?, ht, hl, hh]

theorem afterTake_of_not_lossRefused (h : ∀ item, ¬ LossRefused items held line item) :
    afterTake items index line held = .ok (withoutLoss items held line) := by
  cases ht : line.take with
  | none => simp [afterTake, withoutLoss, ht]
  | some name =>
      obtain ⟨item, hl, hh⟩ : items.Has held name :=
        Classical.not_not.mp fun hnot => h name ⟨ht, hnot⟩
      simp [afterTake, withoutLoss, Registry.take?, ht, hl, hh]

/-- A line ends at its guards, its gift or its loss, or it is shown. -/
theorem verdicts (items : Registry) (held : Holdings) (line : Line) :
    Barred items held line ∨
      (¬ Barred items held line ∧ ∃ item, GiftRefused items held line item) ∨
      (¬ Barred items held line ∧ (∀ item, ¬ GiftRefused items held line item) ∧
        ∃ item, LossRefused items (withGift items held line) line item) ∨
      Shown items held line := by
  by_cases hguards : Barred items held line
  · exact Or.inl hguards
  by_cases hgift : ∃ item, GiftRefused items held line item
  · exact Or.inr (Or.inl ⟨hguards, hgift⟩)
  have hgift := not_exists.mp hgift
  by_cases hloss : ∃ item, LossRefused items (withGift items held line) line item
  · exact Or.inr (Or.inr (Or.inl ⟨hguards, hgift, hloss⟩))
  · exact Or.inr (Or.inr (Or.inr ⟨hguards, hgift, not_exists.mp hloss⟩))

end Line

section Evaluate

variable (settings : Settings) {story : Story} {index : Nat} {line : Line} {held : Holdings}

theorem evaluate_of_barred (h : Barred story.items held line) :
    evaluate settings story index line held = ⟨some (.guardFailed index), .blank, held⟩ := by
  rw [evaluate, guardsHold_eq_false_iff.mpr h]
  rfl

theorem evaluate_of_giftRefused {item : String} (hguards : ¬ Barred story.items held line)
    (h : GiftRefused story.items held line item) :
    evaluate settings story index line held = ⟨some (.giveRefused index item), .blank, held⟩ := by
  rw [evaluate, guardsHold_eq_true_iff.mpr hguards, afterGive_of_giftRefused h]
  rfl

theorem evaluate_of_lossRefused {item : String} (hguards : ¬ Barred story.items held line)
    (hgift : ∀ item, ¬ GiftRefused story.items held line item)
    (h : LossRefused story.items (withGift story.items held line) line item) :
    evaluate settings story index line held =
      ⟨some (.takeRefused index item), .blank, withGift story.items held line⟩ := by
  rw [evaluate, guardsHold_eq_true_iff.mpr hguards, afterGive_of_not_giftRefused hgift]
  simp only [if_true, afterTake_of_lossRefused h]

theorem evaluate_of_shown (h : Shown story.items held line) :
    evaluate settings story index line held =
      present settings story index line
        (withoutLoss story.items (withGift story.items held line) line) := by
  rw [evaluate, guardsHold_eq_true_iff.mpr h.guards, afterGive_of_not_giftRefused h.gift]
  simp only [if_true, afterTake_of_not_lossRefused h.loss]

theorem leaves_evaluate :
    Leaves story.items held line (evaluate settings story index line held).held := by
  rcases verdicts story.items held line with
    hguards | ⟨hguards, item, hgift⟩ | ⟨hguards, hgift, item, hloss⟩ | hshown
  · rw [evaluate_of_barred settings hguards]
    exact .barred hguards
  · rw [evaluate_of_giftRefused settings hguards hgift]
    exact .giftRefused hguards hgift
  · rw [evaluate_of_lossRefused settings hguards hgift hloss]
    exact .lossRefused hguards hgift hloss
  · rw [evaluate_of_shown settings hshown, present_held]
    exact .shown hshown

/-- What evaluation reports of a line is what the line tells. -/
theorem event_evaluate_eq_some_iff {event : Event} :
    (evaluate settings story index line held).event = some event ↔
      Tells story index line held event := by
  constructor
  · intro h
    rcases verdicts story.items held line with
      hguards | ⟨hguards, item, hgift⟩ | ⟨hguards, hgift, item, hloss⟩ | hshown
    · rw [evaluate_of_barred settings hguards] at h
      exact Option.some.inj h ▸ .guardFailed hguards
    · rw [evaluate_of_giftRefused settings hguards hgift] at h
      exact Option.some.inj h ▸ .giveRefused hguards hgift
    · rw [evaluate_of_lossRefused settings hguards hgift hloss] at h
      exact Option.some.inj h ▸ .takeRefused hguards hgift hloss
    · rw [evaluate_of_shown settings hshown, event_present_eq_some_iff] at h
      obtain ⟨target, hlink, hmissing, rfl⟩ := h
      exact .brokenLink hshown hlink hmissing
  · intro h
    cases h with
    | guardFailed hguards => rw [evaluate_of_barred settings hguards]
    | giveRefused hguards hgift => rw [evaluate_of_giftRefused settings hguards hgift]
    | takeRefused hguards hgift hloss => rw [evaluate_of_lossRefused settings hguards hgift hloss]
    | brokenLink hshown hlink hmissing =>
        rw [evaluate_of_shown settings hshown, event_present_eq_some_iff]
        exact ⟨_, hlink, hmissing, rfl⟩

/-- The event says that the line with an index shows nothing. -/
def Event.suppresses (index : Nat) : Event → Bool
  | .guardFailed i => i = index
  | .giveRefused i _ => i = index
  | .takeRefused i _ => i = index
  | _ => false

theorem Event.index?_of_suppresses {event : Event} (h : event.suppresses index = true) :
    event.index? = some index := by
  cases event <;> simp_all [Event.suppresses, Event.index?]

/-- A line that is shown may tell of a broken link, but that does not suppress it. -/
theorem not_suppressed_of_shown (h : Shown story.items held line) :
    (evaluate settings story index line held).event.any (Event.suppresses index) = false := by
  rw [evaluate_of_shown settings h]
  refine Bool.eq_false_iff.mpr fun hany => ?_
  obtain ⟨event, hevent, hsuppresses⟩ := (Option.any_eq_true ..).mp hany
  obtain ⟨target, -, -, rfl⟩ := (event_present_eq_some_iff settings story).mp hevent
  exact Bool.noConfusion hsuppresses

/-- A line has a blank for an outcome if its event says so, and else what it presents with the
holdings that it leaves. -/
theorem outcome_evaluate :
    (evaluate settings story index line held).outcome =
      if (evaluate settings story index line held).event.any (Event.suppresses index) then .blank
      else (present settings story index line
        (evaluate settings story index line held).held).outcome := by
  rcases verdicts story.items held line with
    hguards | ⟨hguards, item, hgift⟩ | ⟨hguards, hgift, item, hloss⟩ | hshown
  · rw [evaluate_of_barred settings hguards]
    simp [Event.suppresses]
  · rw [evaluate_of_giftRefused settings hguards hgift]
    simp [Event.suppresses]
  · rw [evaluate_of_lossRefused settings hguards hgift hloss]
    simp [Event.suppresses]
  · rw [not_suppressed_of_shown settings hshown, evaluate_of_shown settings hshown, present_held]
    rfl

end Evaluate

/-! ## Line by line -/

section Lines

variable (settings : Settings) (story : Story) (held : Holdings) (lines : List Line)

/-- What is held before the line at a place: what the lines in front of it leave. -/
def heldBefore (i : Nat) : Holdings :=
  heldAfter held (evaluateLines settings story 0 held (lines.take i))

variable {settings story held lines}

theorem getElem?_evaluateLines {lines : List Line} :
    ∀ {index : Nat} {held : Holdings} (i : Nat),
      (evaluateLines settings story index held lines)[i]? =
        lines[i]?.map fun line => evaluate settings story (index + i) line
          (heldAfter held (evaluateLines settings story index held (lines.take i))) := by
  induction lines with
  | nil => exact fun i => rfl
  | cons line lines ih =>
      intro index held i
      cases i with
      | zero => rfl
      | succ i =>
          rw [evaluateLines, List.getElem?_cons_succ, ih, List.getElem?_cons_succ,
            List.take_succ_cons, heldAfter_evaluateLines_cons, Nat.add_right_comm, Nat.add_assoc]

/-- The lines of a cell are evaluated each with its place and what is held before it. -/
theorem evaluateLines_eq_map :
    evaluateLines settings story 0 held lines =
      lines.zipIdx.map fun p => evaluate settings story p.2 p.1
        (heldBefore settings story held lines p.2) := by
  refine List.ext_getElem? fun i => ?_
  rw [getElem?_evaluateLines, List.getElem?_map, List.getElem?_zipIdx, Option.map_map,
    Nat.zero_add]
  rfl

theorem heldAfter_take_succ {lines : List Line} :
    ∀ {index : Nat} {held : Holdings} {i : Nat} {line : Line}, lines[i]? = some line →
      heldAfter held (evaluateLines settings story index held (lines.take (i + 1))) =
        (evaluate settings story (index + i) line (heldAfter held
          (evaluateLines settings story index held (lines.take i)))).held := by
  induction lines with
  | nil => exact fun h => nomatch h
  | cons first lines ih =>
      intro index held i line h
      cases i with
      | zero =>
          obtain rfl := Option.some.inj h
          rfl
      | succ i =>
          rw [List.take_succ_cons, heldAfter_evaluateLines_cons, ih h, List.take_succ_cons,
            heldAfter_evaluateLines_cons, Nat.add_right_comm, Nat.add_assoc]

theorem heldBefore_succ {i : Nat} {line : Line} (h : lines[i]? = some line) :
    heldBefore settings story held lines (i + 1) =
      (evaluate settings story i line (heldBefore settings story held lines i)).held := by
  rw [heldBefore, heldAfter_take_succ h, Nat.zero_add]
  rfl

/-! ### What lines report -/

/-- Lines report in the order of their places and at most once each. -/
theorem pairwise_lineEvents :
    ((lineEvents (evaluateLines settings story 0 held lines)).filterMap Event.index?).Pairwise
      (· < ·) := by
  have hplaces : lines.zipIdx.Pairwise fun p q => p.2 < q.2 := by
    rw [← List.pairwise_map (R := (· < ·)), List.zipIdx_map_snd]
    exact List.pairwise_lt_range' 1
  rw [evaluateLines_eq_map, lineEvents, List.filterMap_map, List.filterMap_filterMap,
    List.pairwise_filterMap]
  refine hplaces.imp fun {p q} hlt i hi j hj => ?_
  obtain ⟨event, hevent, hindex⟩ := Option.bind_eq_some_iff.mp hi
  obtain ⟨event', hevent', hindex'⟩ := Option.bind_eq_some_iff.mp hj
  rw [index?_of_event settings story hevent] at hindex
  rw [index?_of_event settings story hevent'] at hindex'
  rwa [← Option.some.inj hindex, ← Option.some.inj hindex']

/-- What is reported of a place is reported by the line at it. -/
theorem mem_lineEvents_iff {i : Nat} {line : Line} (hline : lines[i]? = some line) {event : Event}
    (hi : event.index? = some i) :
    event ∈ lineEvents (evaluateLines settings story 0 held lines) ↔
      (evaluate settings story i line (heldBefore settings story held lines i)).event =
        some event := by
  rw [evaluateLines_eq_map, lineEvents, List.filterMap_map, List.mem_filterMap]
  constructor
  · rintro ⟨⟨other, j⟩, hother, hevent⟩
    obtain rfl := Option.some.inj (hi.symm.trans (index?_of_event settings story hevent))
    obtain rfl := Option.some.inj (hline.symm.trans (List.mem_zipIdx_iff_getElem?.mp hother))
    exact hevent
  · exact fun hevent => ⟨(line, i), List.mem_zipIdx_iff_getElem?.mpr hline, hevent⟩

end Lines

/-! ## Paragraphs -/

/-- The paragraph that an act writes. -/
def Act.paragraph? : Act → Option String
  | .write .textLine text => some text
  | .write .linkLine text => some text
  | _ => none

def paragraphsOf (acts : List Act) : List String := acts.filterMap Act.paragraph?

/-- The paragraph that an outcome asks for. -/
def Outcome.paragraph? (settings : Settings) : Outcome → Option String
  | .blank => none
  | .text s => some (paragraph s)
  | .link token broken caption => some (paragraph (anchor settings token broken caption))

section Paragraphs

variable (settings : Settings)

@[simp] theorem paragraphsOf_nil : paragraphsOf [] = [] := rfl

@[simp] theorem paragraphsOf_cons (act : Act) (acts : List Act) :
    paragraphsOf (act :: acts) = act.paragraph?.toList ++ paragraphsOf acts := by
  cases h : act.paragraph? <;> simp [paragraphsOf, h]

@[simp] theorem paragraphsOf_append (acts acts' : List Act) :
    paragraphsOf (acts ++ acts') = paragraphsOf acts ++ paragraphsOf acts' :=
  List.filterMap_append

theorem paragraphsOf_map_report (events : List Event) :
    paragraphsOf (events.map .report) = [] := by
  rw [paragraphsOf, List.filterMap_map]
  exact List.filterMap_eq_nil_iff.mpr fun _ _ => rfl

theorem paragraphsOf_outcomeActs (afterBlank : Bool) (outcome : Outcome) :
    paragraphsOf (outcomeActs settings afterBlank outcome) =
      (outcome.paragraph? settings).toList := by
  cases outcome with
  | blank => cases afterBlank <;> rfl
  | text s => rfl
  | link token broken caption => rfl

theorem paragraphsOf_bodyActs (es : List Evaluation) :
    ∀ afterBlank, paragraphsOf (bodyActs settings afterBlank es) =
      es.flatMap fun e => (e.outcome.paragraph? settings).toList := by
  induction es with
  | nil => exact fun _ => rfl
  | cons e es ih =>
      intro afterBlank
      rw [bodyActs, paragraphsOf_append, paragraphsOf_append, paragraphsOf_map_report,
        paragraphsOf_outcomeActs, ih, List.flatMap_cons, List.nil_append]

theorem paragraphsOf_commentActs (id : CellId) (held : Holdings) :
    paragraphsOf (commentActs settings id held) = [] := by
  by_cases h : settings.cellComment = true <;> simp [commentActs, paragraphsOf, Act.paragraph?, h]

theorem paragraphsOf_inventoryActs (items : Registry) (held : Holdings) :
    paragraphsOf (inventoryActs settings items held) = [] := by
  refine List.filterMap_eq_nil_iff.mpr fun act hact => ?_
  simp only [inventoryActs, List.cons_append, List.mem_cons, List.mem_append, List.mem_map,
    List.not_mem_nil, or_false] at hact
  rcases hact with rfl | ⟨description, -, rfl⟩ | rfl <;> rfl

/-- Between heading and inventory stand the paragraphs of the lines, and there are no others. -/
theorem paragraphsOf_render {story : Story} {id : CellId} {cell : Cell}
    (h : story.cell? id = some cell) (held : Holdings) :
    paragraphsOf (render settings story id held).acts =
      (evaluateLines settings story 0 held cell.lines).flatMap fun e =>
        (e.outcome.paragraph? settings).toList := by
  simp [render, h, renderCell, Act.paragraph?, paragraphsOf_commentActs, paragraphsOf_bodyActs,
    paragraphsOf_inventoryActs]

end Paragraphs

/-! ## The page -/

/-- The events say that the line with an index shows nothing. -/
def suppressed (events : List Event) (index : Nat) : Bool := events.any (Event.suppresses index)

/-- The events of a page account for it, where `before` is what is held before each line. -/
structure Account (settings : Settings) (story : Story) (id : CellId) (cell : Cell)
    (held : Holdings) (page : Rendering) (before : Nat → Holdings) : Prop where
  first : before 0 = held
  leaves : ∀ i line, cell.lines[i]? = some line →
    Leaves story.items (before i) line (before (i + 1))
  last : before cell.lines.length = page.summary.held
  /-- The cell is entered, lines are told of in order and once at most, and the page is done. -/
  events : ∃ told, page.events = .cellEntered id held :: told ++
      [.finished id page.summary.held page.summary.links.length] ∧
    (told.filterMap Event.index?).Pairwise (· < ·) ∧
      ∀ event ∈ told, ∃ i < cell.lines.length, event.index? = some i
  tells : ∀ i line, cell.lines[i]? = some line → ∀ event, event.index? = some i →
    (event ∈ page.events ↔ Tells story i line (before i) event)
  /-- A line that is not suppressed leads where it links to, with what it leaves. -/
  links : page.summary.links = cell.lines.zipIdx.filterMap fun p =>
    if suppressed page.events p.2 then none
    else p.1.linksTo.map fun target => ⟨.ofName target, before (p.2 + 1)⟩
  /-- A line that is not suppressed shows what it has to show. -/
  paragraphs : paragraphsOf page.acts = cell.lines.zipIdx.filterMap fun p =>
    if suppressed page.events p.2 then none
    else (present settings story p.2 p.1 (before (p.2 + 1))).outcome.paragraph? settings

section Account

variable (settings : Settings) {story : Story} {id : CellId} {cell : Cell}

theorem suppressed_render (h : story.cell? id = some cell) (held : Holdings) {i : Nat}
    {line : Line} (hline : cell.lines[i]? = some line) :
    suppressed (render settings story id held).events i =
      (evaluate settings story i line (heldBefore settings story held cell.lines i)).event.any
        (Event.suppresses i) := by
  refine any_eq_any_option fun event hevent => ?_
  have hi := Event.index?_of_suppresses hevent
  rw [mem_events_render settings story h hi, mem_lineEvents_iff hline hi]

/-- What is made of outcomes, and of blanks nothing, is made of the lines that are not
suppressed. -/
theorem flatMap_evaluateLines (h : story.cell? id = some cell) (held : Holdings) {α : Type}
    {f : Outcome → Option α} (hblank : f .blank = none) :
    ((evaluateLines settings story 0 held cell.lines).flatMap fun e => (f e.outcome).toList) =
      cell.lines.zipIdx.filterMap fun p =>
        if suppressed (render settings story id held).events p.2 then none
        else f (present settings story p.2 p.1
          (heldBefore settings story held cell.lines (p.2 + 1))).outcome := by
  rw [← List.filterMap_eq_flatMap_toList, evaluateLines_eq_map, List.filterMap_map]
  refine List.filterMap_congr fun p hp => ?_
  have hline := List.mem_zipIdx_iff_getElem?.mp hp
  rw [Function.comp_apply, outcome_evaluate, suppressed_render settings h held hline,
    heldBefore_succ hline]
  split
  · exact hblank
  · rfl

theorem links_render (h : story.cell? id = some cell) (held : Holdings) :
    (render settings story id held).summary.links = cell.lines.zipIdx.filterMap fun p =>
      if suppressed (render settings story id held).events p.2 then none
      else p.1.linksTo.map fun target =>
        ⟨.ofName target, heldBefore settings story held cell.lines (p.2 + 1)⟩ := by
  have hlinks : ∀ outcome : Outcome, outcome.links = outcome.links.head?.toList := by
    intro outcome
    cases outcome <;> rfl
  calc (render settings story id held).summary.links
      = linksOf (evaluateLines settings story 0 held cell.lines) :=
        congrArg Summary.links (summary_render settings story h held)
    _ = (evaluateLines settings story 0 held cell.lines).flatMap fun e =>
          e.outcome.links.head?.toList := List.flatMap_congr fun e _ => hlinks e.outcome
    _ = _ := flatMap_evaluateLines settings h held (f := fun outcome => outcome.links.head?) rfl
    _ = _ := by simp only [links_present, Option.head?_toList]

/-- The events of a page account for each of its lines: what the line tells, what it leaves, and
whether it is shown.  Of a cell that the story has not, all that is told is that it is unknown. -/
theorem account_of_render (settings : Settings) (story : Story) (id : CellId) (held : Holdings) :
    let page := render settings story id held
    (∀ cell, story.cell? id = some cell →
      Account settings story id cell held page (heldBefore settings story held cell.lines)) ∧
    (story.cell? id = none →
      page.events = [.unknownCell id] ∧ page.summary.links = [] ∧ page.summary.held = held) := by
  intro page
  constructor
  · intro cell h
    have hsummary := summary_render settings story h held
    exact {
      first := rfl
      leaves := fun i line hline => by
        rw [heldBefore_succ hline]
        exact leaves_evaluate settings
      last := by
        rw [heldBefore, List.take_length]
        exact (congrArg Summary.held hsummary).symm
      events := by
        refine ⟨_, events_render settings story h held, pairwise_lineEvents, fun event he => ?_⟩
        obtain ⟨i, hi, -, hlt⟩ := index?_of_mem_lineEvents settings story cell.lines he
        exact ⟨i, by omega, hi⟩
      tells := fun i line hline event hi => by
        rw [mem_events_render settings story h hi, mem_lineEvents_iff hline hi,
          event_evaluate_eq_some_iff]
      links := links_render settings h held
      paragraphs := by
        rw [paragraphsOf_render settings h held]
        exact flatMap_evaluateLines settings h held rfl }
  · intro h
    have hpage := render_of_missing settings story h held
    refine ⟨congrArg Rendering.events hpage, ?_, ?_⟩
    · exact congrArg (fun r : Rendering => r.summary.links) hpage
    · exact congrArg (fun r : Rendering => r.summary.held) hpage

end Account

/-- A line that is not for everybody, a coin and a second one, a torch that costs a rope nobody
has, a path that is not written, and a text. -/
def stall : Cell :=
  ⟨"Start", some "A stall",
    [⟨["key"], [], none, none, none, "A door."⟩,
      ⟨[], ["torch"], some "coin", none, some "Start", ""⟩,
      ⟨[], [], some "coin", none, some "Start", "Another coin."⟩,
      ⟨[], [], some "torch", some "rope", none, "A torch."⟩, ⟨[], [], none, none, some "Path", ""⟩,
      .ofText "Rain."]⟩

def market : Story :=
  { Story.empty "A market" .epoch with
    items := ⟨[⟨"coin", 0, "A coin"⟩, ⟨"torch", 1, "A torch"⟩, ⟨"rope", 2, "A rope"⟩], by decide,
      by decide, by decide⟩ }.insertCell stall

theorem account_of_render_market :
    market.cell? .start = some stall ∧
      (render .default market .start .empty).events =
        [.cellEntered .start .empty, .guardFailed 0, .giveRefused 2 "coin", .takeRefused 3 "rope",
          .brokenLink 4 "Path", .finished .start ⟨3⟩ 2] ∧
      Account .default market .start stall .empty (render .default market .start .empty)
        (heldBefore .default market .empty stall.lines) ∧
      market.cell? (.ofName "Path") = none ∧
      (render .default market (.ofName "Path") ⟨3⟩).events = [.unknownCell (.ofName "Path")] := by
  have hstall : market.cell? .start = some stall := by decide +kernel
  have hpath : market.cell? (.ofName "Path") = none := by decide +kernel
  refine ⟨hstall, by decide +kernel, ?_, hpath, ?_⟩
  · exact (account_of_render .default market .start .empty).1 stall hstall
  · exact ((account_of_render .default market (.ofName "Path") ⟨3⟩).2 hpath).1

end Page

end Gamebook
