/-
# What the acts of a page come to

A page is its acts in order.  Events and text of acts one after the other are
events and text one after the other, so those of a page are put together from its
parts: entering, comment and heading, the lines, the inventory, leaving.  Lines
report at most one event each and before they write.

Main statements: `eventsOf_bodyActs`, the events of lines; `events_render` and
`text_render`, those of a page and its text.
-/
import Gamebook.Proofs.Page.Evaluation

namespace Gamebook.Page

/-! ## Acts one after the other -/

@[simp] theorem eventsOf_nil : eventsOf [] = [] := rfl

@[simp] theorem eventsOf_report (event : Event) (acts : List Act) :
    eventsOf (.report event :: acts) = event :: eventsOf acts := rfl

@[simp] theorem eventsOf_write (piece : Piece) (text : String) (acts : List Act) :
    eventsOf (.write piece text :: acts) = eventsOf acts := rfl

@[simp] theorem eventsOf_append (acts acts' : List Act) :
    eventsOf (acts ++ acts') = eventsOf acts ++ eventsOf acts' := List.filterMap_append

@[simp] theorem textOf_nil : textOf [] = "" := rfl

@[simp] theorem textOf_report (event : Event) (acts : List Act) :
    textOf (.report event :: acts) = textOf acts := rfl

@[simp] theorem textOf_write (piece : Piece) (text : String) (acts : List Act) :
    textOf (.write piece text :: acts) = text ++ textOf acts := rfl

@[simp] theorem textOf_append (acts acts' : List Act) :
    textOf (acts ++ acts') = textOf acts ++ textOf acts' := by
  induction acts with
  | nil => simp
  | cons act acts ih => cases act <;> simp [ih, String.append_assoc]

/-! ## Lines -/

theorem eventsOf_map_report (events : List Event) : eventsOf (events.map .report) = events := by
  rw [eventsOf, List.filterMap_map]
  exact List.filterMap_some

theorem eventsOf_map_write (piece : Piece) (write : String → String) (contents : List String) :
    eventsOf (contents.map fun content => .write piece (write content)) = [] := by
  rw [eventsOf, List.filterMap_map]
  exact List.filterMap_eq_nil_iff.mpr fun _ _ => rfl

theorem textOf_map_report (events : List Event) : textOf (events.map .report) = "" := by
  induction events with
  | nil => rfl
  | cons event events ih => rw [List.map_cons, textOf_report, ih]

theorem textOf_map_write (piece : Piece) (write : String → String) (contents : List String) :
    textOf (contents.map fun content => .write piece (write content)) =
      String.join (contents.map write) := by
  induction contents with
  | nil => rfl
  | cons content contents ih =>
      rw [List.map_cons, textOf_write, ih, List.map_cons, String.join_cons]

/-- What an outcome asks for is written and nothing of it reported. -/
theorem eventsOf_outcomeActs (settings : Settings) (afterBlank : Bool) (outcome : Outcome) :
    eventsOf (outcomeActs settings afterBlank outcome) = [] := by
  cases outcome with
  | blank => cases afterBlank <;> rfl
  | text s => rfl
  | link token broken caption => rfl

/-- The events that evaluated lines report. -/
def lineEvents (es : List Evaluation) : List Event := es.filterMap Evaluation.event

theorem lineEvents_cons (e : Evaluation) (es : List Evaluation) :
    lineEvents (e :: es) = e.event.toList ++ lineEvents es := by
  cases h : e.event <;> simp [lineEvents, h]

/-- Of the events that a question is about there is one at most, and so the question is about that
one. -/
theorem any_eq_any_option {events : List Event} {event? : Option Event} {p : Event → Bool}
    (h : ∀ event, p event = true → (event ∈ events ↔ event? = some event)) :
    events.any p = event?.any p := by
  rw [Bool.eq_iff_iff, List.any_eq_true, Option.any_eq_true]
  constructor
  · rintro ⟨event, he, hp⟩
    exact ⟨event, (h event hp).mp he, hp⟩
  · rintro ⟨event, he, hp⟩
    exact ⟨event, (h event hp).mpr he, hp⟩

/-- What the lines of a cell report names one of them. -/
theorem index?_of_mem_lineEvents (settings : Settings) (story : Story) {event : Event}
    (lines : List Line) :
    ∀ {index : Nat} {held : Holdings},
      event ∈ lineEvents (evaluateLines settings story index held lines) →
        ∃ i, event.index? = some i ∧ index ≤ i ∧ i < index + lines.length := by
  induction lines with
  | nil => exact fun h => absurd h List.not_mem_nil
  | cons line lines ih =>
      intro index held h
      rw [evaluateLines, lineEvents_cons, List.mem_append] at h
      rcases h with h | h
      · have hindex := index?_of_event settings story (Option.mem_toList.mp h)
        exact ⟨index, hindex, Nat.le_refl _, by simp⟩
      · obtain ⟨i, hi, hle, hlt⟩ := ih h
        exact ⟨i, hi, by omega, by rw [List.length_cons]; omega⟩

theorem eventsOf_bodyActs (settings : Settings) (es : List Evaluation) :
    ∀ afterBlank, eventsOf (bodyActs settings afterBlank es) = lineEvents es := by
  induction es with
  | nil => exact fun _ => rfl
  | cons e es ih =>
      intro afterBlank
      rw [bodyActs, eventsOf_append, eventsOf_append, eventsOf_map_report, eventsOf_outcomeActs,
        ih, lineEvents_cons, List.append_nil]

/-! ## Pages -/

section Page

variable (settings : Settings) (story : Story) {id : CellId}

theorem eventsOf_commentActs (id : CellId) (held : Holdings) :
    eventsOf (commentActs settings id held) = [] := by
  by_cases h : settings.cellComment = true <;> simp [commentActs, h]

theorem eventsOf_inventoryActs (items : Registry) (held : Holdings) :
    eventsOf (inventoryActs settings items held) = [] := by
  simp [inventoryActs, eventsOf_map_write]

/-- A page reports that its cell is entered, then what its lines report, then that it is done. -/
theorem events_render {cell : Cell} (h : story.cell? id = some cell) (held : Holdings) :
    (render settings story id held).events =
      .cellEntered id held :: lineEvents (evaluateLines settings story 0 held cell.lines) ++
        [.finished id (render settings story id held).summary.held
          (render settings story id held).summary.links.length] := by
  simp [Rendering.events, render, h, renderCell, eventsOf_commentActs, eventsOf_bodyActs,
    eventsOf_inventoryActs]

/-- An event of a page that names a line is one that the lines report. -/
theorem mem_events_render {cell : Cell} (h : story.cell? id = some cell) {held : Holdings}
    {event : Event} {i : Nat} (hi : event.index? = some i) :
    event ∈ (render settings story id held).events ↔
      event ∈ lineEvents (evaluateLines settings story 0 held cell.lines) := by
  rw [events_render settings story h]
  simp only [List.cons_append, List.mem_cons, List.mem_append, List.not_mem_nil, or_false]
  constructor
  · rintro (rfl | he | rfl)
    · exact nomatch hi
    · exact he
    · exact nomatch hi
  · exact fun he => Or.inr (Or.inl he)

/-- A page reads comment, heading, lines and inventory. -/
theorem text_render {cell : Cell} (h : story.cell? id = some cell) (held : Holdings) :
    (render settings story id held).text =
      textOf (commentActs settings id held) ++ headingText cell ++
        textOf (bodyActs settings false (evaluateLines settings story 0 held cell.lines)) ++
        textOf (inventoryActs settings story.items
          (render settings story id held).summary.held) := by
  simp [Rendering.text, render, h, renderCell, String.append_assoc]

theorem render_of_missing (h : story.cell? id = none) (held : Holdings) :
    render settings story id held =
      ⟨[.report (.unknownCell id), .write .missingCell (missingNotice id)],
        ⟨id, false, held, []⟩⟩ := by
  rw [render, h]

end Page

end Gamebook.Page
