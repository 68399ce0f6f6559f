/-
# A page into a sink that gives out

A sink takes so many bytes and then refuses, at whatever byte of whatever piece,
in the middle of a character even.  What it has is the front of the page, byte for
byte, and nothing is done after the refusal: the pieces behind are not written and
the lines behind are not evaluated.

Acts are cut where the bytes run out.  Behind acts that fit the rest is delivered
into what room is left, and behind acts that do not fit nothing matters
(`deliver_append_of_le`, `deliver_append_of_lt`); so the cut is inside one piece
(`exists_cut`), and the lines evaluated are those with no refused byte in front of
them (`events_deliver_bodyActs`).

Main statement: `deliver_render`.
-/
import Gamebook.Proofs.Page.Acts
import Gamebook.Proofs.Page.Bytes

namespace Gamebook.Page

/-- The number of bytes that acts write. -/
def byteSize (acts : List Act) : Nat := (bytesOf (textOf acts)).length

@[simp] theorem byteSize_nil : byteSize [] = 0 := by simp [byteSize]

@[simp] theorem byteSize_report (event : Event) (acts : List Act) :
    byteSize (.report event :: acts) = byteSize acts := rfl

@[simp] theorem byteSize_write (piece : Piece) (text : String) (acts : List Act) :
    byteSize (.write piece text :: acts) = (bytesOf text).length + byteSize acts := by
  simp [byteSize]

@[simp] theorem byteSize_append (acts acts' : List Act) :
    byteSize (acts ++ acts') = byteSize acts + byteSize acts' := by
  simp [byteSize]

/-! ## Delivery of acts -/

theorem deliver_report (room : Nat) (event : Event) (acts : List Act) :
    deliver room (.report event :: acts) =
      { deliver room acts with events := event :: (deliver room acts).events } := rfl

theorem deliver_write_of_le {room : Nat} {piece : Piece} {text : String} {acts : List Act}
    (h : (bytesOf text).length ≤ room) :
    deliver room (.write piece text :: acts) =
      { deliver (room - (bytesOf text).length) acts with
        accepted := bytesOf text ++ (deliver (room - (bytesOf text).length) acts).accepted } :=
  if_pos h

theorem deliver_write_of_lt {room : Nat} {piece : Piece} {text : String} {acts : List Act}
    (h : room < (bytesOf text).length) :
    deliver room (.write piece text :: acts) = ⟨(bytesOf text).take room, [], some piece⟩ :=
  if_neg (Nat.not_le_of_lt h)

/-- Behind acts that fit, the rest is delivered into the room they leave. -/
theorem deliver_append_of_le (acts' : List Act) {acts : List Act} :
    ∀ {room : Nat}, byteSize acts ≤ room →
      deliver room (acts ++ acts') =
        ⟨bytesOf (textOf acts) ++ (deliver (room - byteSize acts) acts').accepted,
          eventsOf acts ++ (deliver (room - byteSize acts) acts').events,
          (deliver (room - byteSize acts) acts').refused⟩ := by
  induction acts with
  | nil => simp
  | cons act acts ih =>
      intro room h
      cases act with
      | report event => rw [List.cons_append, deliver_report, ih h]; rfl
      | write piece text =>
          rw [byteSize_write] at h
          have hroom : room - (bytesOf text).length - byteSize acts =
              room - ((bytesOf text).length + byteSize acts) := Nat.sub_sub ..
          rw [List.cons_append, deliver_write_of_le (by omega), ih (by omega), hroom]
          simp

/-- Behind acts that do not fit, nothing matters. -/
theorem deliver_append_of_lt (acts' : List Act) {acts : List Act} :
    ∀ {room : Nat}, room < byteSize acts → deliver room (acts ++ acts') = deliver room acts := by
  induction acts with
  | nil =>
      intro room h
      exact absurd h (by simp)
  | cons act acts ih =>
      intro room h
      cases act with
      | report event => rw [List.cons_append, deliver_report, deliver_report, ih h]
      | write piece text =>
          rw [byteSize_write] at h
          by_cases htext : (bytesOf text).length ≤ room
          · rw [List.cons_append, deliver_write_of_le htext, deliver_write_of_le htext,
              ih (by omega)]
          · have htext' : room < (bytesOf text).length := Nat.lt_of_not_le htext
            rw [List.cons_append, deliver_write_of_lt htext', deliver_write_of_lt htext']

theorem deliver_of_le {acts : List Act} {room : Nat} (h : byteSize acts ≤ room) :
    deliver room acts = ⟨bytesOf (textOf acts), eventsOf acts, none⟩ := by
  have hall := deliver_append_of_le [] h
  simpa [deliver] using hall

/-- Where the bytes run out: behind acts that fit, inside one piece. -/
theorem exists_cut {acts : List Act} :
    ∀ {room : Nat}, room < byteSize acts →
      ∃ before piece text after, acts = before ++ .write piece text :: after ∧
        byteSize before ≤ room ∧ room < byteSize before + (bytesOf text).length := by
  induction acts with
  | nil =>
      intro room h
      exact absurd h (by simp)
  | cons act acts ih =>
      intro room h
      cases act with
      | report event =>
          obtain ⟨before, piece, text, after, hacts, hle, hlt⟩ := ih h
          exact ⟨.report event :: before, piece, text, after, by rw [hacts]; rfl, hle, hlt⟩
      | write piece text =>
          by_cases htext : room < (bytesOf text).length
          · exact ⟨[], piece, text, acts, rfl, by simp, by simpa using htext⟩
          · rw [byteSize_write] at h
            obtain ⟨before, piece', text', after, hacts, hle, hlt⟩ :=
              @ih (room - (bytesOf text).length) (by omega)
            refine ⟨.write piece text :: before, piece', text', after, by rw [hacts]; rfl, ?_, ?_⟩
            · rw [byteSize_write]; omega
            · rw [byteSize_write]; omega

/-- What a cut leaves: the bytes in front of it, the events in front of the piece, the piece. -/
theorem deliver_cut {before after : List Act} {piece : Piece} {text : String} {room : Nat}
    (hle : byteSize before ≤ room) (hlt : room < byteSize before + (bytesOf text).length) :
    deliver room (before ++ .write piece text :: after) =
      ⟨(bytesOf (textOf (before ++ .write piece text :: after))).take room, eventsOf before,
        some piece⟩ := by
  have hpiece : room - byteSize before < (bytesOf text).length := by omega
  have hbefore : (bytesOf (textOf before)).length ≤ room := hle
  have htext : room - (bytesOf (textOf before)).length - (bytesOf text).length = 0 :=
    Nat.sub_eq_zero_of_le (Nat.le_of_lt hpiece)
  rw [deliver_append_of_le _ hle, deliver_write_of_lt hpiece, textOf_append, textOf_write,
    bytesOf_append, bytesOf_append, List.take_append, List.take_append, htext,
    List.take_of_length_le hbefore]
  simp [byteSize]

theorem accepted_deliver (room : Nat) (acts : List Act) :
    (deliver room acts).accepted = (bytesOf (textOf acts)).take room := by
  by_cases h : byteSize acts ≤ room
  · rw [deliver_of_le h, List.take_of_length_le h]
  · obtain ⟨before, piece, text, after, rfl, hle, hlt⟩ := exists_cut (Nat.lt_of_not_le h)
    rw [deliver_cut hle hlt]

theorem events_deliver_isPrefix (room : Nat) (acts : List Act) :
    (deliver room acts).events <+: eventsOf acts := by
  by_cases h : byteSize acts ≤ room
  · simp only [deliver_of_le h, List.prefix_rfl]
  · obtain ⟨before, piece, text, after, rfl, hle, hlt⟩ := exists_cut (Nat.lt_of_not_le h)
    rw [deliver_cut hle hlt, eventsOf_append]
    exact List.prefix_append ..

/-- Acts that report nothing report nothing into any sink. -/
theorem events_deliver_of_silent {acts : List Act} (h : eventsOf acts = []) (room : Nat) :
    (deliver room acts).events = [] :=
  List.prefix_nil.mp (h ▸ events_deliver_isPrefix room acts)

/-- Behind acts, pieces that report nothing keep what is reported behind them from being reported
if they do not fit. -/
theorem events_deliver_append_silent {acts silent : List Act} {event : Event} {room : Nat}
    (hsilent : eventsOf silent = []) (h : room < byteSize (acts ++ (silent ++ [.report event]))) :
    (deliver room (acts ++ (silent ++ [.report event]))).events = (deliver room acts).events := by
  by_cases hfit : byteSize acts ≤ room
  · have hlt : room - byteSize acts < byteSize silent := by
      simp only [byteSize_append, byteSize_report, byteSize_nil] at h
      omega
    rw [deliver_append_of_le _ hfit, deliver_append_of_lt _ hlt, deliver_of_le hfit,
      events_deliver_of_silent hsilent, List.append_nil]
  · rw [deliver_append_of_lt _ (Nat.lt_of_not_le hfit)]

/-! ## Delivery of lines -/

/-- The lines that are evaluated are those with no refused byte in front of them, and all that
they report is reported. -/
theorem events_deliver_bodyActs (settings : Settings) (es : List Evaluation) :
    ∀ (afterBlank : Bool) (room : Nat), ∃ m,
      (∀ i, i < m ↔ i < es.length ∧ byteSize (bodyActs settings afterBlank (es.take i)) ≤ room) ∧
        (deliver room (bodyActs settings afterBlank es)).events = lineEvents (es.take m) := by
  induction es with
  | nil => exact fun _ _ => ⟨0, by simp, rfl⟩
  | cons e es ih =>
      intro afterBlank room
      -- what the first line does, and the size in front of the lines behind it
      let first := e.event.toList.map Act.report ++ outcomeActs settings afterBlank e.outcome
      have hfirst : eventsOf first = e.event.toList := by
        rw [eventsOf_append, eventsOf_map_report, eventsOf_outcomeActs, List.append_nil]
      have hacts : ∀ rest : List Evaluation, bodyActs settings afterBlank (e :: rest) =
          first ++ bodyActs settings (e.outcome = .blank) rest := fun _ => rfl
      have hsize : ∀ i, byteSize (bodyActs settings afterBlank ((e :: es).take (i + 1))) =
          byteSize first + byteSize (bodyActs settings (e.outcome = .blank) (es.take i)) := by
        intro i
        rw [List.take_succ_cons, hacts, byteSize_append]
      by_cases h : byteSize first ≤ room
      · obtain ⟨m, hm, hevents⟩ := ih (e.outcome = .blank) (room - byteSize first)
        refine ⟨m + 1, fun i => ?_, ?_⟩
        · cases i with
          | zero => simp [bodyActs]
          | succ i =>
              rw [hsize, Nat.add_lt_add_iff_right, hm, List.length_cons, Nat.add_lt_add_iff_right]
              omega
        · rw [hacts, deliver_append_of_le _ h, hevents, hfirst, List.take_succ_cons,
            lineEvents_cons]
      · have hlt : room < byteSize first := Nat.lt_of_not_le h
        refine ⟨1, fun i => ?_, ?_⟩
        · cases i with
          | zero => simp [bodyActs]
          | succ i =>
              rw [hsize]
              omega
        · have hreports : byteSize (e.event.toList.map Act.report) ≤ room := by
            rw [byteSize, textOf_map_report, bytesOf_empty]
            exact Nat.zero_le room
          rw [hacts, deliver_append_of_lt _ hlt, deliver_append_of_le _ hreports,
            eventsOf_map_report, events_deliver_of_silent (eventsOf_outcomeActs ..),
            List.append_nil, List.take_succ_cons, lineEvents_cons]
          simp [lineEvents]

/-! ## Delivery of a page -/

section Page

variable (settings : Settings) (story : Story)

/-- The acts in front of the lines. -/
def openingActs (id : CellId) (cell : Cell) (held : Holdings) : List Act :=
  .report (.cellEntered id held) :: commentActs settings id held ++
    [.write .heading (headingText cell)]

/-- What a page reads in front of what a line writes. -/
def textBefore (id : CellId) (cell : Cell) (held : Holdings) (index : Nat) : String :=
  textOf (commentActs settings id held) ++ headingText cell ++
    textOf (bodyActs settings false
      ((evaluateLines settings story 0 held cell.lines).take index))

theorem acts_render {id : CellId} {cell : Cell} (h : story.cell? id = some cell)
    (held : Holdings) :
    (render settings story id held).acts =
      openingActs settings id cell held ++
        (bodyActs settings false (evaluateLines settings story 0 held cell.lines) ++
          (inventoryActs settings story.items (render settings story id held).summary.held ++
            [.report (.finished id (render settings story id held).summary.held
              (render settings story id held).summary.links.length)])) := by
  simp [render, h, renderCell, openingActs]

theorem length_textBefore (id : CellId) (cell : Cell) (held : Holdings) (index : Nat) :
    (bytesOf (textBefore settings story id cell held index)).length =
      byteSize (openingActs settings id cell held) +
        byteSize (bodyActs settings false
          ((evaluateLines settings story 0 held cell.lines).take index)) := by
  simp [textBefore, openingActs, byteSize, Nat.add_assoc]

theorem length_evaluateLines (lines : List Line) :
    ∀ index held, (evaluateLines settings story index held lines).length = lines.length := by
  induction lines with
  | nil => exact fun _ _ => rfl
  | cons line lines ih => exact fun _ _ => congrArg Nat.succ (ih _ _)

/-- A page that does not fit reports that its cell is entered and what those lines report that have
no refused byte in front of them. -/
theorem events_deliver_render {id : CellId} {cell : Cell} (h : story.cell? id = some cell)
    {held : Holdings} {room : Nat} (hroom : room < byteSize (render settings story id held).acts) :
    ∃ m, (∀ i, i < m ↔ i < cell.lines.length ∧
        (bytesOf (textBefore settings story id cell held i)).length ≤ room) ∧
      ((render settings story id held).deliver room).events =
        .cellEntered id held ::
          lineEvents ((evaluateLines settings story 0 held cell.lines).take m) := by
  have hopening : eventsOf (openingActs settings id cell held) = [.cellEntered id held] := by
    simp [openingActs, eventsOf_commentActs]
  have hbefore := length_textBefore settings story id cell held
  rw [Rendering.deliver]
  rw [acts_render settings story h] at hroom ⊢
  by_cases hfit : byteSize (openingActs settings id cell held) ≤ room
  · obtain ⟨m, hm, hevents⟩ := events_deliver_bodyActs settings
      (evaluateLines settings story 0 held cell.lines) false
      (room - byteSize (openingActs settings id cell held))
    refine ⟨m, fun i => ?_, ?_⟩
    · rw [hm, hbefore, length_evaluateLines]
      omega
    · have hrest := hroom
      rw [byteSize_append] at hrest
      rw [deliver_append_of_le _ hfit, hopening,
        events_deliver_append_silent (eventsOf_inventoryActs ..) (by omega), hevents]
      rfl
  · refine ⟨0, fun i => ?_, ?_⟩
    · rw [hbefore]
      omega
    · have hsilent : eventsOf (commentActs settings id held ++
          [.write .heading (headingText cell)]) = [] := by
        simp [eventsOf_commentActs]
      rw [deliver_append_of_lt _ (Nat.lt_of_not_le hfit), openingActs, List.cons_append,
        deliver_report, events_deliver_of_silent hsilent]
      rfl

/-- A page that does not fit is not reported as finished. -/
theorem finished_not_mem_events_deliver {id : CellId} {held : Holdings} {room : Nat}
    (hroom : room < byteSize (render settings story id held).acts) (c : CellId) (last : Holdings)
    (links : Nat) :
    .finished c last links ∉ ((render settings story id held).deliver room).events := by
  intro hmem
  cases hc : story.cell? id with
  | none =>
      rw [render_of_missing settings story hc] at hmem
      have hall := (events_deliver_isPrefix room _).subset hmem
      simp at hall
  | some cell =>
      obtain ⟨m, -, hevents⟩ := events_deliver_render settings story hc hroom
      rw [hevents, List.mem_cons] at hmem
      rcases hmem with hmem | hmem
      · exact absurd hmem (by simp)
      · have hline : Event.finished c last links ∈
            lineEvents (evaluateLines settings story 0 held cell.lines) :=
          ((List.take_sublist m _).filterMap _).subset hmem
        obtain ⟨i, hi, -⟩ := index?_of_mem_lineEvents settings story cell.lines hline
        exact absurd hi (by simp [Event.index?])

/-- Whatever the page and the room: the sink has the first bytes of the page.  If they are all,
the page is answered and reported as into any sink.  If not, the error names the piece that holds
the first byte refused, and what was reported is what was reported in front of that piece: that
the cell is entered, and all of those lines that have no refused byte in front of them. -/
theorem deliver_render (id : CellId) (held : Holdings) (room : Nat) :
    let page := render settings story id held
    let bytes := bytesOf page.text
    (page.deliver room).accepted = bytes.take (min room bytes.length) ∧
      (bytes.length ≤ room →
        page.writeTo room = .ok page.summary ∧ (page.deliver room).events = page.events) ∧
      (room < bytes.length →
        (∃ before piece text after, page.acts = before ++ .write piece text :: after ∧
          (bytesOf (textOf before)).length ≤ room ∧
          room < (bytesOf (textOf before ++ text)).length ∧
          page.writeTo room = .error ⟨piece, room⟩ ∧
          (page.deliver room).events = eventsOf before) ∧
        (page.deliver room).events <+: page.events ∧
        (∀ c last links, .finished c last links ∉ (page.deliver room).events) ∧
        ∀ cell, story.cell? id = some cell →
          ∃ m, (∀ i, i < m ↔ i < cell.lines.length ∧
              (bytesOf (textBefore settings story id cell held i)).length ≤ room) ∧
            (page.deliver room).events = .cellEntered id held ::
              lineEvents ((evaluateLines settings story 0 held cell.lines).take m)) := by
  intro page bytes
  refine ⟨?_, fun hfit => ?_, fun hroom => ⟨?_, events_deliver_isPrefix room page.acts,
    finished_not_mem_events_deliver settings story hroom, fun cell hc =>
      events_deliver_render settings story hc hroom⟩⟩
  · rw [Rendering.deliver, accepted_deliver, ← List.take_eq_take_min]
    rfl
  · have hall : page.deliver room = ⟨bytes, page.events, none⟩ := deliver_of_le hfit
    rw [Rendering.writeTo, hall]
    exact ⟨rfl, rfl⟩
  · obtain ⟨before, piece, text, after, hacts, hle, hlt⟩ := exists_cut hroom
    have hcut : page.deliver room = ⟨bytes.take room, eventsOf before, some piece⟩ := by
      have hdeliver := @deliver_cut before after piece text room hle hlt
      rwa [← hacts] at hdeliver
    refine ⟨before, piece, text, after, hacts, hle, ?_, ?_, ?_⟩
    · rwa [bytesOf_append, List.length_append]
    · rw [Rendering.writeTo, hcut]
      simp [Nat.min_eq_left (Nat.le_of_lt hroom)]
    · rw [hcut]

/-- A cell whose first line asks for a lamp and whose second has a dash of three bytes. -/
def passage : Cell :=
  ⟨"Start", none, [⟨["lamp"], [], none, none, none, "It is lit."⟩, .ofText "Dark — quite dark."]⟩

def passages : Story := (Story.empty "Passages" .epoch).insertCell passage

/-- The room ends behind the first byte of the dash. -/
theorem deliver_render_passages :
    77 < (bytesOf (render .default passages .start .empty).text).length ∧
      ((render .default passages .start .empty).deliver 77).accepted =
        (bytesOf (render .default passages .start .empty).text).take 77 ∧
      (∃ piece, (render .default passages .start .empty).writeTo 77 = .error ⟨piece, 77⟩) ∧
      ((render .default passages .start .empty).deliver 77).events =
        [.cellEntered .start .empty, .guardFailed 0] := by
  have hroom : 77 < (bytesOf (render .default passages .start .empty).text).length := by
    rw [bytesOf_eq]
    decide +kernel
  obtain ⟨haccepted, -, hcut⟩ := deliver_render .default passages .start .empty 77
  obtain ⟨⟨before, piece, text, after, -, -, -, herror, -⟩, -, -, hlines⟩ := hcut hroom
  obtain ⟨m, hm, hevents⟩ := hlines passage (by decide +kernel)
  have hsecond : 1 < m := by
    refine (hm 1).mpr ⟨by decide, ?_⟩
    rw [bytesOf_eq]
    decide +kernel
  have hend : ¬2 < m := fun h => absurd ((hm 2).mp h).1 (by decide)
  obtain rfl : m = 2 := by omega
  refine ⟨hroom, ?_, ⟨piece, herror⟩, ?_⟩
  · rwa [Nat.min_eq_left (Nat.le_of_lt hroom)] at haccepted
  · rw [hevents]
    decide +kernel

end Page

end Gamebook.Page
