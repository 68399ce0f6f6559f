/-
# Bits that no item owns

A token may carry bits that belong to no item of the story.  They change nothing:
they are not asked for, not set and not cleared, and go from line to line and into
every link as they came.  Two readers whose holdings differ in such bits alone see
the same page but for the numbers in it that write holdings.

`Holdings.flip` turns the bits of a mask over.  What is asked of holdings does not
see a flip of bits without an item, and what is done to holdings commutes with it
(`holds_flip`, `give?_flip`, `take?_flip`), so a line does (`evaluate_flip`), so all
lines do (`evaluateLines_flip`).

Main statement: `render_of_inert`.
-/
import Gamebook.Proofs.Page.Acts
import Gamebook.Proofs.Page.Evaluation

namespace Gamebook

/-! ## Holdings -/

/-- Holdings with the bits of a mask turned over. -/
def Holdings.flip (held : Holdings) (mask : UInt64) : Holdings := ⟨held.bits ^^^ mask⟩

theorem Holdings.hasBit_flip (held : Holdings) (mask : UInt64) (i : Nat) :
    (held.flip mask).hasBit i = (held.hasBit i ^^ mask.toNat.testBit i) := by
  rw [hasBit, flip, UInt64.toNat_xor, Nat.testBit_xor]
  rfl

theorem Holdings.flip_xor (held held' : Holdings) :
    held.flip (held.bits ^^^ held'.bits) = held' := by
  rw [flip, ← UInt64.xor_assoc, UInt64.xor_self, UInt64.zero_xor]

namespace Registry

/-- The mask has none of the bits of the items. -/
def Inert (r : Registry) (mask : UInt64) : Prop := ∀ i < r.size, mask.toNat.testBit i = false

/-- Holdings that agree on the bits of the items differ by a mask without them. -/
theorem inert_xor {r : Registry} {held held' : Holdings}
    (h : ∀ i < r.size, held.hasBit i = held'.hasBit i) : r.Inert (held.bits ^^^ held'.bits) := by
  intro i hi
  have hagree : held.bits.toNat.testBit i = held'.bits.toNat.testBit i := h i hi
  rw [UInt64.toNat_xor, Nat.testBit_xor, hagree, Bool.xor_self]

section Inert

variable {r : Registry} {mask : UInt64} (h : r.Inert mask)
include h

section Item

variable {item : Item} (hitem : item ∈ r.items) (held : Holdings)
include hitem

theorem holds_flip : (held.flip mask).holds item = held.holds item := by
  have hbit := bit_lt hitem
  rw [Holdings.holds_eq hbit, Holdings.holds_eq hbit, Holdings.hasBit_flip,
    h item.bit (bit_lt_size hitem), Bool.xor_false]

theorem insert_flip : (held.flip mask).insert item = (held.insert item).flip mask := by
  have hbit := bit_lt hitem
  refine Holdings.ext_of_hasBit fun i _ => ?_
  rw [Holdings.hasBit_insert hbit, Holdings.hasBit_flip, Holdings.hasBit_flip,
    Holdings.hasBit_insert hbit]
  by_cases hi : item.bit = i
  · rw [← hi, h item.bit (bit_lt_size hitem)]
    simp
  · simp [hi]

theorem erase_flip : (held.flip mask).erase item = (held.erase item).flip mask := by
  have hbit := bit_lt hitem
  refine Holdings.ext_of_hasBit fun i _ => ?_
  rw [Holdings.hasBit_erase hbit, Holdings.hasBit_flip, Holdings.hasBit_flip,
    Holdings.hasBit_erase hbit]
  by_cases hi : item.bit = i
  · rw [← hi, h item.bit (bit_lt_size hitem)]
    simp
  · simp [hi]

end Item

theorem any_holds_flip (held : Holdings) (name : String) :
    (r.lookup? name).any (held.flip mask).holds = (r.lookup? name).any held.holds := by
  cases hl : r.lookup? name with
  | none => rfl
  | some item => exact holds_flip h (lookup?_eq_some_iff.mp hl).1 held

theorem hasAll_flip (held : Holdings) (names : List String) :
    r.hasAll (held.flip mask) names = r.hasAll held names := by
  simp only [hasAll, any_holds_flip h]

theorem hasAny_flip (held : Holdings) (names : List String) :
    r.hasAny (held.flip mask) names = r.hasAny held names := by
  simp only [hasAny_eq_any, any_holds_flip h]

theorem give?_flip (held : Holdings) (name : String) :
    r.give? (held.flip mask) name = (r.give? held name).map (·.flip mask) := by
  rw [give?, give?]
  cases hl : r.lookup? name with
  | none => rfl
  | some item =>
      have hitem := (lookup?_eq_some_iff.mp hl).1
      simp only [holds_flip h hitem, insert_flip h hitem]
      cases held.holds item <;> rfl

theorem take?_flip (held : Holdings) (name : String) :
    r.take? (held.flip mask) name = (r.take? held name).map (·.flip mask) := by
  rw [take?, take?]
  cases hl : r.lookup? name with
  | none => rfl
  | some item =>
      have hitem := (lookup?_eq_some_iff.mp hl).1
      simp only [holds_flip h hitem, erase_flip h hitem]
      cases held.holds item <;> rfl

theorem contents_flip (held : Holdings) : r.contents (held.flip mask) = r.contents held := by
  rw [contents, contents]
  refine congrArg _ (List.filter_congr fun item hitem => ?_)
  rw [holds_flip h hitem]

end Inert

end Registry

namespace Page

/-! ## Lines -/

/-- The token with the bits of a mask turned over in its holdings. -/
def flipToken (mask : UInt64) (t : Token) : Token := ⟨t.cell, t.held.flip mask⟩

def Outcome.flip (mask : UInt64) : Outcome → Outcome
  | .blank => .blank
  | .text s => .text s
  | .link token broken caption => .link (flipToken mask token) broken caption

/-- The same event and the same kind of outcome; holdings and token with bits turned over. -/
def Evaluation.flip (mask : UInt64) (e : Evaluation) : Evaluation :=
  ⟨e.event, e.outcome.flip mask, e.held.flip mask⟩

section Lines

variable (settings : Settings) {story : Story} {mask : UInt64}

theorem guardsHold_flip (h : story.items.Inert mask) (held : Holdings) (line : Line) :
    guardsHold story.items (held.flip mask) line = guardsHold story.items held line := by
  rw [guardsHold, guardsHold, Registry.hasAll_flip h, Registry.hasAny_flip h]

theorem afterGive_flip (h : story.items.Inert mask) (index : Nat) (line : Line) (held : Holdings) :
    afterGive story.items index line (held.flip mask) =
      (afterGive story.items index line held).map (·.flip mask) := by
  rw [afterGive, afterGive]
  cases line.give with
  | none => rfl
  | some name =>
      simp only [Registry.give?_flip h]
      cases story.items.give? held name <;> rfl

theorem afterTake_flip (h : story.items.Inert mask) (index : Nat) (line : Line) (held : Holdings) :
    afterTake story.items index line (held.flip mask) =
      (afterTake story.items index line held).map (·.flip mask) := by
  rw [afterTake, afterTake]
  cases line.take with
  | none => rfl
  | some name =>
      simp only [Registry.take?_flip h]
      cases story.items.take? held name <;> rfl

/-- Holdings are presented as they are, so a presented line carries the flip along. -/
theorem present_flip (index : Nat) (line : Line) (held : Holdings) :
    present settings story index line (held.flip mask) =
      (present settings story index line held).flip mask := by
  cases hl : line.linksTo with
  | none => by_cases ht : line.text = "" <;> simp [present, hl, ht, Evaluation.flip, Outcome.flip]
  | some target =>
      cases hc : story.cellNamed? target <;>
        simp [present, hl, hc, Evaluation.flip, Outcome.flip, flipToken]

/-- The step: a line that is entered with bits turned over leaves them turned over, and comes to
the same otherwise. -/
theorem evaluate_flip (h : story.items.Inert mask) (index : Nat) (line : Line) (held : Holdings) :
    evaluate settings story index line (held.flip mask) =
      (evaluate settings story index line held).flip mask := by
  rw [evaluate, evaluate, guardsHold_flip h, afterGive_flip h]
  cases guardsHold story.items held line with
  | false => rfl
  | true =>
      cases afterGive story.items index line held with
      | error refusal => rfl
      | ok given =>
          simp only [Except.map, afterTake_flip h]
          cases afterTake story.items index line given with
          | error refusal => rfl
          | ok kept => exact present_flip settings index line kept

/-- The run: so it is with all lines of a cell. -/
theorem evaluateLines_flip (h : story.items.Inert mask) (lines : List Line) :
    ∀ index held, evaluateLines settings story index (held.flip mask) lines =
      (evaluateLines settings story index held lines).map (Evaluation.flip mask) := by
  induction lines with
  | nil => exact fun _ _ => rfl
  | cons line lines ih =>
      intro index held
      have hline := evaluate_flip settings h index line held
      rw [evaluateLines, evaluateLines, hline, List.map_cons]
      exact congrArg _ (ih (index + 1) (evaluate settings story index line held).held)

end Lines

/-! ## What is made of the lines -/

section Views

variable (settings : Settings) (mask : UInt64)

theorem heldAfter_flip (es : List Evaluation) :
    ∀ held : Holdings,
      heldAfter (held.flip mask) (es.map (Evaluation.flip mask)) =
        (heldAfter held es).flip mask := by
  induction es with
  | nil => exact fun _ => rfl
  | cons e es ih => exact fun _ => ih e.held

theorem linksOf_flip (es : List Evaluation) :
    linksOf (es.map (Evaluation.flip mask)) = (linksOf es).map (flipToken mask) := by
  have hlinks : ∀ o : Outcome, (o.flip mask).links = o.links.map (flipToken mask) := by
    intro o
    cases o <;> rfl
  induction es with
  | nil => rfl
  | cons e es ih =>
      simp only [linksOf, List.map_cons, List.flatMap_cons, List.map_append] at ih ⊢
      rw [ih]
      exact congrArg (· ++ _) (hlinks e.outcome)

theorem lineEvents_flip (es : List Evaluation) :
    lineEvents (es.map (Evaluation.flip mask)) = lineEvents es := by
  rw [lineEvents, List.filterMap_map]
  rfl

/-- Without a link there is no outcome that shows holdings. -/
theorem bodyActs_flip {es : List Evaluation} :
    linksOf es = [] → ∀ afterBlank,
      bodyActs settings afterBlank (es.map (Evaluation.flip mask)) =
        bodyActs settings afterBlank es := by
  induction es with
  | nil => exact fun _ _ => rfl
  | cons e es ih =>
      intro hlinks afterBlank
      obtain ⟨hhead, htail⟩ := List.append_eq_nil_iff.mp hlinks
      have hhead : e.outcome.links = [] := hhead
      have hsame : e.outcome.flip mask = e.outcome := by
        cases ho : e.outcome with
        | blank => rfl
        | text s => rfl
        | link token broken caption =>
            rw [ho] at hhead
            exact absurd hhead (by simp [Outcome.links])
      rw [List.map_cons, bodyActs, bodyActs, ih htail]
      show _ ++ outcomeActs settings afterBlank (e.outcome.flip mask) ++
        bodyActs settings (e.outcome.flip mask = .blank) es = _
      rw [hsame]
      rfl

end Views

/-! ## Pages -/

/-- The event with the bits of a mask turned over in the holdings it names. -/
def Event.flip (mask : UInt64) : Event → Event
  | .cellEntered cell held => .cellEntered cell (held.flip mask)
  | .finished cell held links => .finished cell (held.flip mask) links
  | event => event

/-- An event that names a line names no holdings. -/
theorem Event.flip_of_index? (mask : UInt64) {event : Event} {index : Nat}
    (h : event.index? = some index) : event.flip mask = event := by
  cases event with
  | guardFailed _ => rfl
  | giveRefused _ _ => rfl
  | takeRefused _ _ => rfl
  | brokenLink _ _ => rfl
  | unknownCell _ => rfl
  | cellEntered _ _ => exact absurd h (by simp [Event.index?])
  | finished _ _ _ => exact absurd h (by simp [Event.index?])

theorem map_flip_lineEvents (settings : Settings) (story : Story) (mask : UInt64) (index : Nat)
    (held : Holdings) (lines : List Line) :
    (lineEvents (evaluateLines settings story index held lines)).map (Event.flip mask) =
      lineEvents (evaluateLines settings story index held lines) := by
  refine (List.map_congr_left fun event hevent => ?_).trans (List.map_id _)
  obtain ⟨i, hi, -⟩ := index?_of_mem_lineEvents settings story lines hevent
  exact Event.flip_of_index? mask hi

section Pages

variable (settings : Settings) {story : Story} {mask : UInt64}

theorem summary_render_flip (h : story.items.Inert mask) (id : CellId) (held : Holdings) :
    (render settings story id (held.flip mask)).summary =
      ⟨(render settings story id held).summary.cell, (render settings story id held).summary.found,
        (render settings story id held).summary.held.flip mask,
        (render settings story id held).summary.links.map (flipToken mask)⟩ := by
  cases hc : story.cell? id with
  | none => rw [render_of_missing settings story hc, render_of_missing settings story hc]; rfl
  | some cell =>
      rw [summary_render settings story hc, summary_render settings story hc,
        evaluateLines_flip settings h, heldAfter_flip, linksOf_flip]

theorem events_render_flip (h : story.items.Inert mask) (id : CellId) (held : Holdings) :
    (render settings story id (held.flip mask)).events =
      (render settings story id held).events.map (Event.flip mask) := by
  cases hc : story.cell? id with
  | none => rw [render_of_missing settings story hc, render_of_missing settings story hc]; rfl
  | some cell =>
      rw [events_render settings story hc, events_render settings story hc,
        summary_render_flip settings h, evaluateLines_flip settings h, lineEvents_flip,
        List.map_append, List.map_cons, map_flip_lineEvents, List.length_map]
      rfl

/-- Holdings are written in the comment and in links, and nowhere else. -/
theorem text_render_flip (h : story.items.Inert mask) {id : CellId} {held : Holdings}
    (hcomment : settings.cellComment = false)
    (hlinks : (render settings story id held).summary.links = []) :
    (render settings story id (held.flip mask)).text = (render settings story id held).text := by
  cases hc : story.cell? id with
  | none => rw [render_of_missing settings story hc, render_of_missing settings story hc]; rfl
  | some cell =>
      have hinventory : inventoryActs settings story.items
            ((render settings story id held).summary.held.flip mask) =
          inventoryActs settings story.items (render settings story id held).summary.held := by
        rw [inventoryActs, inventoryActs, Registry.contents_flip h]
      have hnone : linksOf (evaluateLines settings story 0 held cell.lines) = [] := by
        rwa [summary_render settings story hc] at hlinks
      have hsilent : ∀ held, commentActs settings id held = [] := by
        intro held
        rw [commentActs, hcomment, if_neg Bool.false_ne_true]
      rw [text_render settings story hc, text_render settings story hc,
        summary_render_flip settings h, hinventory, evaluateLines_flip settings h,
        bodyActs_flip settings mask hnone, hsilent, hsilent]

/-- Two readers whose holdings agree on the bits of all items enter the same cell.  What they find
differs by the same bits as what they bring, in every link and at the end; kinds, targets and texts
of all lines are the same, and so are the inventory and what is reported.  If no comment and no
link shows holdings, the pages are the same text. -/
theorem render_of_inert {held held' : Holdings}
    (h : ∀ i < story.items.size, held.hasBit i = held'.hasBit i) (id : CellId) :
    let mask := held.bits ^^^ held'.bits
    let page := render settings story id held
    let page' := render settings story id held'
    page'.summary.found = page.summary.found ∧
      (∀ cell, story.cell? id = some cell →
        evaluateLines settings story 0 held' cell.lines =
          (evaluateLines settings story 0 held cell.lines).map (Evaluation.flip mask)) ∧
      page'.summary.links = page.summary.links.map (flipToken mask) ∧
      page'.summary.held = page.summary.held.flip mask ∧
      story.items.contents page'.summary.held = story.items.contents page.summary.held ∧
      page'.events = page.events.map (Event.flip mask) ∧
      (settings.cellComment = false → page.summary.links = [] → page'.text = page.text) := by
  intro mask page page'
  have hmask : story.items.Inert mask := Registry.inert_xor h
  have hflip : held' = held.flip mask := (Holdings.flip_xor held held').symm
  have hsummary : page'.summary = ⟨page.summary.cell, page.summary.found,
      page.summary.held.flip mask, page.summary.links.map (flipToken mask)⟩ := by
    show (render settings story id held').summary = _
    rw [hflip]
    exact summary_render_flip settings hmask id held
  refine ⟨by rw [hsummary], ?_, by rw [hsummary], by rw [hsummary], ?_, ?_, ?_⟩
  · intro cell _
    rw [hflip]
    exact evaluateLines_flip settings hmask cell.lines 0 held
  · rw [hsummary]
    exact Registry.contents_flip hmask _
  · show (render settings story id held').events = _
    rw [hflip]
    exact events_render_flip settings hmask id held
  · intro hcomment hlinks
    show (render settings story id held').text = _
    rw [hflip]
    exact text_render_flip settings hmask hcomment hlinks

/-- A room in which a lamp is handed over on the way round. -/
def hall : Story :=
  { Story.empty "A hall" .epoch with
    items := ⟨[⟨"lamp", 0, "An oil lamp"⟩], rfl, List.pairwise_singleton _ _,
      by decide⟩ }.insertCell
    ⟨"Start", none, [⟨[], ["lamp"], some "lamp", none, some "Start", "Take the lamp"⟩]⟩

theorem render_of_inert_hall :
    (∀ i < hall.items.size,
        Holdings.empty.hasBit i = (⟨0x8000000000000000⟩ : Holdings).hasBit i) ∧
      (render .default hall .start .empty).summary.links = [⟨.start, ⟨1⟩⟩] ∧
      (render .default hall .start ⟨0x8000000000000000⟩).summary.links =
        [⟨.start, ⟨0x8000000000000001⟩⟩] := by
  have hagree : ∀ i < hall.items.size,
      Holdings.empty.hasBit i = (⟨0x8000000000000000⟩ : Holdings).hasBit i := by
    intro i hi
    obtain rfl : i = 0 := Nat.lt_one_iff.mp hi
    decide +kernel
  have hlinks : (render .default hall .start .empty).summary.links = [⟨.start, ⟨1⟩⟩] := by
    decide +kernel
  obtain ⟨-, -, hflip, -⟩ := render_of_inert .default hagree .start
  refine ⟨hagree, hlinks, ?_⟩
  rw [hflip, hlinks]
  decide +kernel

end Pages

end Page

end Gamebook
