/-
# What the events of a compilation account for

A compilation reports each line at most once, in the order of the lines, and lines in
front of the first cell together, when that cell opens or the source ends.  A cell is
reported when it opens and again when it is stored, which is one opening later or at
the end; what is added to it stands between the two.

The events are read in three ways:

* by the lines they account for (`Event.share`), by their numbers (`Event.line?`);
* as a front and a row of visits, each from the opening of a cell to its storing
  (`Bracketed`); while a cell is open the last visit is unfinished;
* by the cell stored last under an identifier (`lastCommit`).

Each reading is kept by every step, with the draft's count of dropped lines, its open
cell and its cells as what is still to be reported.

Main statement: `events_of_compile`.
-/
import Gamebook.Proofs.Source.Pass
import Mathlib.Algebra.Ring.Nat

namespace Gamebook.Source

/-! ## Reading events -/

namespace Event

/-- The number of the line that an event names. -/
def line? : Event → Option Nat
  | blankLine line => some line
  | titleFound line _ => some line
  | cellOpened line _ _ => some line
  | cellCommitted .. => none
  | orphansDropped _ => none
  | itemDefined line _ _ => some line
  | lineAppended line _ => some line

/-- The number of lines that an event accounts for: its own, or those that were dropped. -/
def share : Event → Nat
  | cellCommitted .. => 0
  | orphansDropped count => count
  | _ => 1

def isBlank : Event → Bool
  | blankLine _ => true
  | _ => false

def isTitle : Event → Bool
  | titleFound .. => true
  | _ => false

def isDropped : Event → Bool
  | orphansDropped _ => true
  | _ => false

def opens : Event → Bool
  | cellOpened .. => true
  | _ => false

def appends : Event → Bool
  | lineAppended .. => true
  | _ => false

/-- The name and the number of lines of a cell that is stored under an identifier. -/
def committed? (id : CellId) : Event → Option (String × Nat)
  | cellCommitted name id' lines => if id' = id then some (name, lines) else none
  | _ => none

/-- The event may stand in front of all cells and of the report of dropped lines. -/
inductive Outside : Event → Prop
  | blankLine (line : Nat) : Outside (.blankLine line)
  | titleFound (line : Nat) (title : String) : Outside (.titleFound line title)
  | itemDefined (line : Nat) (name : String) (bit : Nat) : Outside (.itemDefined line name bit)

/-- The event may stand between the opening and the storing of a cell. -/
inductive Within (cell : String) : Event → Prop
  | blankLine (line : Nat) : Within cell (.blankLine line)
  | itemDefined (line : Nat) (name : String) (bit : Nat) : Within cell (.itemDefined line name bit)
  | lineAppended (line : Nat) : Within cell (.lineAppended line cell)

end Event

/-- What was stored last under an identifier. -/
def lastCommit (events : List Event) (id : CellId) : Option (String × Nat) :=
  events.reverse.findSome? (Event.committed? id)

/-- What the storing of a cell reports of it. -/
def commitOf (cell : Cell) : String × Nat := (cell.name, cell.lines.length)

/-- The report of dropped lines, if there are any. -/
def droppedEvents (count : Nat) : List Event := if 0 < count then [.orphansDropped count] else []

/-- The opening of a cell with what is reported while it is open. -/
structure Visit where
  line : Nat
  name : String
  label : Option String
  between : List Event

namespace Visit

def opening (v : Visit) : List Event := .cellOpened v.line v.name v.label :: v.between

/-- The visit goes on with an event. -/
def push (v : Visit) (e : Event) : Visit := { v with between := v.between ++ [e] }

/-- How many lines were added to the cell so far. -/
def added (v : Visit) : Nat := v.between.countP Event.appends

/-- A finished visit: the cell is stored with the lines that were added to it. -/
def events (v : Visit) : List Event :=
  v.opening ++ [.cellCommitted v.name (.ofName v.name) v.added]

def Sound (v : Visit) : Prop := ∀ e ∈ v.between, e.Within v.name

theorem added_push (v : Visit) (e : Event) : (v.push e).added = v.added + e.appends.toNat := by
  rw [added, push, List.countP_append, List.countP_singleton, ← added]
  cases e.appends <;> rfl

end Visit

/-- Only blank lines stand in front of a title. -/
def TitleFirst (e e' : Event) : Prop := e'.isTitle = true → e.isBlank = true

/-- Neither a report of dropped lines nor the opening of a cell stands in front of a report of
dropped lines. -/
def DroppedFirst (e e' : Event) : Prop :=
  e'.isDropped = true → e.isDropped = false ∧ e.opens = false

/-- Events in front of all cells, then the report of dropped lines, then visits one after the other,
the last of which may be unfinished. -/
def Bracketed (events : List Event) (unfinished : Option Visit) : Prop :=
  ∃ (front : List Event) (dropped : Nat) (visits : List Visit),
    events = front ++ droppedEvents dropped ++
      (visits.flatMap Visit.events ++ unfinished.toList.flatMap Visit.opening) ∧
    (∀ e ∈ front, e.Outside) ∧ front.Pairwise TitleFirst ∧ (∀ v ∈ visits, v.Sound) ∧
    ∀ v ∈ unfinished, v.Sound

/-- Each line once, in order, and each cell from its opening to its storing. -/
structure Accounts (lines : Nat) (events : List Event) : Prop where
  shares : (events.map Event.share).sum = lines
  ascending : (events.filterMap Event.line?).Pairwise (· < ·)
  title : events.Pairwise TitleFirst
  dropped : events.Pairwise DroppedFirst
  dropped_pos : ∀ count, .orphansDropped count ∈ events → 0 < count
  bracketed : Bracketed events none

/-- Lines in front of the one that is a fault, and the cell opened last not stored. -/
structure BreaksOff (line : Nat) (events : List Event) : Prop where
  earlier : ∀ m ∈ events.filterMap Event.line?, m < line
  bracketed : ∃ unfinished, Bracketed events unfinished ∧
    (unfinished = none → ∀ e ∈ events, e.opens = false)

/-! ## What the brackets say about titles and dropped lines -/

theorem eq_of_mem_droppedEvents {count : Nat} {e : Event} (h : e ∈ droppedEvents count) :
    e = .orphansDropped count ∧ 0 < count := by
  unfold droppedEvents at h
  split at h
  next hpos => exact ⟨List.mem_singleton.mp h, hpos⟩
  next => exact absurd h List.not_mem_nil

theorem pairwise_droppedEvents (R : Event → Event → Prop) (count : Nat) :
    (droppedEvents count).Pairwise R := by
  unfold droppedEvents
  split
  next => exact List.pairwise_singleton _ _
  next => exact .nil

theorem Event.Outside.not_dropped {e : Event} (h : e.Outside) :
    e.isDropped = false ∧ e.opens = false := by
  cases h <;> exact ⟨rfl, rfl⟩

theorem Event.Within.not_first {cell : String} {e : Event} (h : e.Within cell) :
    e.isTitle = false ∧ e.isDropped = false := by
  cases h <;> exact ⟨rfl, rfl⟩

theorem Visit.Sound.not_first_of_mem_opening {v : Visit} (h : v.Sound) {e : Event}
    (he : e ∈ v.opening) : e.isTitle = false ∧ e.isDropped = false := by
  rcases List.mem_cons.mp he with rfl | he
  · exact ⟨rfl, rfl⟩
  · exact (h e he).not_first

theorem Visit.Sound.not_first_of_mem_events {v : Visit} (h : v.Sound) {e : Event}
    (he : e ∈ v.events) : e.isTitle = false ∧ e.isDropped = false := by
  rcases List.mem_append.mp he with he | he
  · exact h.not_first_of_mem_opening he
  · obtain rfl := List.mem_singleton.mp he
    exact ⟨rfl, rfl⟩

section Bracketed

variable {events : List Event} {unfinished : Option Visit}

/-- Behind the front and the report of dropped lines neither a title nor such a report comes. -/
theorem Bracketed.cases (h : Bracketed events unfinished) :
    ∃ front dropped visited, events = front ++ droppedEvents dropped ++ visited ∧
      (∀ e ∈ front, e.Outside) ∧ front.Pairwise TitleFirst ∧
      ∀ e ∈ visited, e.isTitle = false ∧ e.isDropped = false := by
  obtain ⟨front, dropped, visits, hevents, hfront, htitle, hvisits, hlast⟩ := h
  refine ⟨front, dropped, _, hevents, hfront, htitle, fun e he => ?_⟩
  rcases List.mem_append.mp he with he | he
  · obtain ⟨v, hv, he⟩ := List.mem_flatMap.mp he
    exact (hvisits v hv).not_first_of_mem_events he
  · obtain ⟨v, hv, he⟩ := List.mem_flatMap.mp he
    exact (hlast v (Option.mem_toList.mp hv)).not_first_of_mem_opening he

/-- An order that asks nothing of what stands in front of late events. -/
theorem pairwise_append_of_late {R : Event → Event → Prop} {early late : List Event}
    (hearly : early.Pairwise R) (hlate : ∀ e ∈ late, ∀ e', R e' e) : (early ++ late).Pairwise R :=
  List.pairwise_append.mpr ⟨hearly, List.pairwise_of_forall_mem_list fun e' _ e he => hlate e he e',
    fun e' _ e he => hlate e he e'⟩

theorem Bracketed.titleFirst (h : Bracketed events unfinished) : events.Pairwise TitleFirst := by
  obtain ⟨front, dropped, visited, rfl, -, htitle, hvisited⟩ := h.cases
  refine pairwise_append_of_late (pairwise_append_of_late htitle ?_) ?_
  · intro e he e' ht
    obtain ⟨rfl, -⟩ := eq_of_mem_droppedEvents he
    exact Bool.noConfusion ht
  · intro e he e' ht
    rw [(hvisited e he).1] at ht
    exact Bool.noConfusion ht

theorem Bracketed.droppedFirst (h : Bracketed events unfinished) :
    events.Pairwise DroppedFirst := by
  obtain ⟨front, dropped, visited, rfl, hfront, -, hvisited⟩ := h.cases
  have hearly : ∀ e ∈ front, ∀ e', DroppedFirst e e' := fun e he _ _ => (hfront e he).not_dropped
  refine pairwise_append_of_late (List.pairwise_append.mpr ⟨?_, pairwise_droppedEvents _ _, ?_⟩) ?_
  · exact List.pairwise_of_forall_mem_list fun e he e' _ => hearly e he e'
  · exact fun e he e' _ => hearly e he e'
  · intro e he e' hd
    rw [(hvisited e he).2] at hd
    exact Bool.noConfusion hd

theorem Bracketed.dropped_pos (h : Bracketed events unfinished) {count : Nat}
    (hcount : .orphansDropped count ∈ events) : 0 < count := by
  obtain ⟨front, dropped, visited, rfl, hfront, -, hvisited⟩ := h.cases
  rcases List.mem_append.mp hcount with hcount | hcount
  · rcases List.mem_append.mp hcount with hcount | hcount
    · exact nomatch hfront _ hcount
    · obtain ⟨he, hpos⟩ := eq_of_mem_droppedEvents hcount
      obtain rfl := Event.orphansDropped.inj he
      exact hpos
  · exact nomatch (hvisited _ hcount).2

end Bracketed

/-! ## Lines and their numbers -/

namespace Draft

variable {compiledAt : Timestamp} {earlier : List (List Char)} {draft next : Draft}
  {events new : List Event} {number : Nat} {raw : List Char}

theorem orphanEvents_eq (draft : Draft) : draft.orphanEvents = droppedEvents draft.orphans := rfl

theorem sum_share_droppedEvents (count : Nat) :
    ((droppedEvents count).map Event.share).sum = count := by
  cases count <;> simp [droppedEvents, Event.share]

theorem sum_share_orphanEvents (draft : Draft) :
    (draft.orphanEvents.map Event.share).sum = draft.orphans :=
  sum_share_droppedEvents draft.orphans

/-- A step accounts for its line at once or adds it to those that are dropped. -/
theorem Step.shares (h : Step draft number raw new (.ok next)) :
    (new.map Event.share).sum + next.orphans = draft.orphans + 1 := by
  cases h with
  | blank => exact Nat.add_comm ..
  | title => exact Nat.add_comm ..
  | openFirst => simp [sum_share_orphanEvents, Event.share]
  | openNext => simp [sum_share_orphanEvents, Event.share]
  | define => exact Nat.add_comm ..
  | append => exact Nat.add_comm ..
  | drop => exact Nat.zero_add _

theorem Reached.shares (h : Reached compiledAt earlier draft events) :
    (events.map Event.share).sum + draft.orphans = earlier.length := by
  induction h with
  | start => rfl
  | read _ hstep ih =>
      have := hstep.shares
      rw [List.map_append, List.sum_append, List.length_append, List.length_singleton]
      omega

theorem filterMap_line?_droppedEvents (count : Nat) :
    (droppedEvents count).filterMap Event.line? = [] := by
  cases count <;> rfl

/-- What a step reports names its line or none. -/
theorem Step.numbers (h : Step draft number raw new (.ok next)) :
    new.filterMap Event.line? = [number] ∨ new.filterMap Event.line? = [] := by
  cases h with
  | openFirst =>
      rw [orphanEvents_eq, List.filterMap_append, filterMap_line?_droppedEvents]
      exact Or.inl rfl
  | openNext =>
      rw [orphanEvents_eq, List.filterMap_append, filterMap_line?_droppedEvents]
      exact Or.inl rfl
  | drop => exact Or.inr rfl
  | _ => exact Or.inl rfl

theorem Reached.numbers (h : Reached compiledAt earlier draft events) :
    (events.filterMap Event.line?).Pairwise (· < ·) ∧
      ∀ m ∈ events.filterMap Event.line?, m ≤ earlier.length := by
  induction h with
  | start => exact ⟨.nil, fun m hm => absurd hm List.not_mem_nil⟩
  | @read earlier raw draft next events new _ hstep ih =>
      obtain ⟨hascending, hle⟩ := ih
      rw [List.filterMap_append, List.length_append, List.length_singleton]
      rcases hstep.numbers with hnew | hnew
      · rw [hnew]
        constructor
        · refine List.pairwise_append.mpr ⟨hascending, List.pairwise_singleton _ _, ?_⟩
          intro m hm n hn
          obtain rfl := List.mem_singleton.mp hn
          exact Nat.lt_succ_of_le (hle m hm)
        · intro m hm
          rcases List.mem_append.mp hm with hm | hm
          · exact Nat.le_succ_of_le (hle m hm)
          · exact Nat.le_of_eq (List.mem_singleton.mp hm)
      · rw [hnew, List.append_nil]
        exact ⟨hascending, fun m hm => Nat.le_succ_of_le (hle m hm)⟩

end Draft

/-! ## Visits -/

section Push

variable {events : List Event} {v : Visit}

/-- A visit that goes on. -/
theorem Bracketed.push (h : Bracketed events (some v)) {e : Event} (he : e.Within v.name) :
    Bracketed (events ++ [e]) (some (v.push e)) := by
  obtain ⟨front, dropped, visits, rfl, hfront, htitle, hvisits, hlast⟩ := h
  refine ⟨front, dropped, visits, ?_, hfront, htitle, hvisits, ?_⟩
  · simp [Visit.opening, Visit.push]
  · intro v' hv' e' he'
    obtain rfl := Option.some.inj hv'
    rcases List.mem_append.mp he' with he' | he'
    · exact hlast v rfl e' he'
    · obtain rfl := List.mem_singleton.mp he'
      exact he

/-- A visit that ends. -/
theorem Bracketed.commit (h : Bracketed events (some v)) :
    Bracketed (events ++ [.cellCommitted v.name (.ofName v.name) v.added]) none := by
  obtain ⟨front, dropped, visits, rfl, hfront, htitle, hvisits, hlast⟩ := h
  refine ⟨front, dropped, visits ++ [v], ?_, hfront, htitle, ?_, fun v' hv' => nomatch hv'⟩
  · simp [Visit.events]
  · intro v' hv'
    rcases List.mem_append.mp hv' with hv' | hv'
    · exact hvisits v' hv'
    · obtain rfl := List.mem_singleton.mp hv'
      exact hlast v' rfl

/-- A visit that begins. -/
theorem Bracketed.open (h : Bracketed events none) (line : Nat) (name : String)
    (label : Option String) :
    Bracketed (events ++ [.cellOpened line name label]) (some ⟨line, name, label, []⟩) := by
  obtain ⟨front, dropped, visits, rfl, hfront, htitle, hvisits, -⟩ := h
  refine ⟨front, dropped, visits, ?_, hfront, htitle, hvisits, ?_⟩
  · simp [Visit.opening]
  · intro v hv e he
    obtain rfl := Option.some.inj hv
    exact absurd he List.not_mem_nil

theorem bracketed_front (hfront : ∀ e ∈ events, e.Outside) (htitle : events.Pairwise TitleFirst)
    (dropped : Nat) : Bracketed (events ++ droppedEvents dropped) none :=
  ⟨events, dropped, [], by simp, hfront, htitle, (fun v hv => nomatch hv), fun v hv => nomatch hv⟩

end Push

namespace Draft

variable {compiledAt : Timestamp} {earlier : List (List Char)} {draft next : Draft}
  {events new : List Event} {number : Nat} {raw : List Char}

/-- What the events say of the draft.  While no cell is open they are a front; while one is, the
unfinished visit is that of the open cell, with as many lines added as the cell has. -/
inductive Told (draft : Draft) (events : List Event) : Prop
  | front : draft.current = none → (∀ e ∈ events, e.Outside) → events.Pairwise TitleFirst →
      (draft.titleSeen = false → ∀ e ∈ events, e.isBlank = true) → Told draft events
  | visit {cell : Cell} {v : Visit} : draft.current = some cell → draft.titleSeen = true →
      draft.orphans = 0 → v.name = cell.name → v.added = cell.lines.length →
        Bracketed events (some v) → Told draft events

theorem outside_concat (hfront : ∀ e ∈ events, e.Outside) {e : Event} (he : e.Outside) :
    ∀ e' ∈ events ++ [e], e'.Outside := by
  intro e' he'
  rcases List.mem_append.mp he' with he' | he'
  · exact hfront e' he'
  · exact List.mem_singleton.mp he' ▸ he

theorem titleFirst_concat (htitle : events.Pairwise TitleFirst) {e : Event}
    (he : e.isTitle = true → ∀ e' ∈ events, e'.isBlank = true) :
    (events ++ [e]).Pairwise TitleFirst := by
  refine List.pairwise_append.mpr ⟨htitle, List.pairwise_singleton _ _, ?_⟩
  intro e' he' e'' he'' ht
  obtain rfl := List.mem_singleton.mp he''
  exact he ht e' he'

/-- A step in front of all cells. -/
theorem Step.told_of_front (h : Step draft number raw new (.ok next)) (hc : draft.current = none)
    (hfront : ∀ e ∈ events, e.Outside) (htitle : events.Pairwise TitleFirst)
    (hblank : draft.titleSeen = false → ∀ e ∈ events, e.isBlank = true) :
    Told next (events ++ new) := by
  cases h with
  | blank =>
      refine .front hc (outside_concat hfront (.blankLine number))
        (titleFirst_concat htitle fun ht => Bool.noConfusion ht) fun hseen e he => ?_
      rcases List.mem_append.mp he with he | he
      · exact hblank hseen e he
      · exact List.mem_singleton.mp he ▸ rfl
  | title _ hseen =>
      exact .front hc (outside_concat hfront (.titleFound ..))
        (titleFirst_concat htitle fun _ => hblank hseen) fun hseen' => Bool.noConfusion hseen'
  | @openFirst name label =>
      have hopen := (bracketed_front hfront htitle draft.orphans).open number name label
      rw [List.append_assoc, ← orphanEvents_eq] at hopen
      exact .visit rfl rfl rfl rfl rfl hopen
  | openNext _ hc' => exact nomatch hc.symm.trans hc'
  | define =>
      exact .front hc (outside_concat hfront (.itemDefined ..))
        (titleFirst_concat htitle fun ht => Bool.noConfusion ht) fun hseen => Bool.noConfusion hseen
  | append _ hc' => exact nomatch hc.symm.trans hc'
  | drop =>
      rw [List.append_nil]
      exact .front rfl hfront htitle fun hseen => Bool.noConfusion hseen

/-- A step while a cell is open. -/
theorem Step.told_of_visit (h : Step draft number raw new (.ok next)) {cell : Cell} {v : Visit}
    (hc : draft.current = some cell) (hseen : draft.titleSeen = true) (horphans : draft.orphans = 0)
    (hname : v.name = cell.name) (hcount : v.added = cell.lines.length)
    (hb : Bracketed events (some v)) : Told next (events ++ new) := by
  cases h with
  | blank =>
      exact .visit (v := v.push (.blankLine number)) hc hseen horphans hname
        ((v.added_push _).trans hcount) (hb.push (.blankLine number))
  | title _ hseen' => exact nomatch hseen.symm.trans hseen'
  | openFirst _ hc' => exact nomatch hc.symm.trans hc'
  | @openNext name label cell' _ hc' =>
      obtain rfl := Option.some.inj (hc.symm.trans hc')
      have hopen := hb.commit.open number name label
      rw [hname, hcount, List.append_assoc] at hopen
      rw [orphanEvents_eq, horphans]
      exact .visit rfl rfl rfl rfl rfl hopen
  | @define _ _ item =>
      exact .visit (v := v.push (.itemDefined number item.name item.bit)) hc rfl horphans hname
        ((v.added_push _).trans hcount) (hb.push (.itemDefined ..))
  | @append line cell' _ hc' =>
      obtain rfl := Option.some.inj (hc.symm.trans hc')
      have hadded : (v.push (.lineAppended number v.name)).added =
          (cell.lines ++ [line]).length := by
        rw [v.added_push, hcount, List.length_append]
        rfl
      rw [← hname]
      exact .visit (v := v.push (.lineAppended number v.name)) rfl rfl horphans rfl hadded
        (hb.push (.lineAppended number))
  | drop _ hc' => exact nomatch hc.symm.trans hc'

theorem Reached.told (h : Reached compiledAt earlier draft events) : Told draft events := by
  induction h with
  | start =>
      exact .front rfl (fun e he => absurd he List.not_mem_nil) .nil
        fun _ e he => absurd he List.not_mem_nil
  | read _ hstep ih =>
      cases ih with
      | front hc hfront htitle hblank => exact hstep.told_of_front hc hfront htitle hblank
      | visit hc hseen horphans hname hcount hb =>
          exact hstep.told_of_visit hc hseen horphans hname hcount hb

/-- What is told when the source ends. -/
theorem Told.close (h : Told draft events) : Bracketed (events ++ draft.close.1) none := by
  cases h with
  | front hc hfront htitle =>
      have hclose : draft.close.1 = droppedEvents draft.orphans := by
        simp only [Draft.close, hc]
        rfl
      rw [hclose]
      exact bracketed_front hfront htitle draft.orphans
  | @visit cell v hc _ horphans hname hcount hb =>
      have hclose : draft.close.1 =
          [.cellCommitted v.name (.ofName v.name) v.added] := by
        simp only [Draft.close, hc, orphanEvents_eq, horphans, hname, hcount]
        rfl
      rw [hclose]
      exact hb.commit

/-! ## Stored cells -/

/-- Of two runs of events the later one has the say. -/
theorem lastCommit_append (events new : List Event) (id : CellId) :
    lastCommit (events ++ new) id = (lastCommit new id).or (lastCommit events id) := by
  rw [lastCommit, List.reverse_append, List.findSome?_append]
  rfl

theorem lastCommit_droppedEvents (count : Nat) (id : CellId) :
    lastCommit (droppedEvents count) id = none := by
  cases count <;> rfl

theorem lastCommit_opened (events : List Event) (line : Nat) (name : String) (label : Option String)
    (id : CellId) :
    lastCommit (events ++ [.cellOpened line name label]) id = lastCommit events id := by
  rw [lastCommit_append]
  rfl

/-- What storing a cell reports, under an identifier that may be another. -/
theorem lastCommit_commit (story : Story) (cell : Cell) (id : CellId) :
    ((story.insertCell cell).cell? id).map commitOf =
      (lastCommit [.cellCommitted cell.name cell.id cell.lines.length] id).or
        ((story.cell? id).map commitOf) := by
  rw [Story.cell?_insertCell]
  by_cases hid : cell.id = id
  · simp [lastCommit, Event.committed?, hid, commitOf]
  · simp [lastCommit, Event.committed?, hid]

/-- The cells that a step stores are those it reports. -/
theorem Step.stored (h : Step draft number raw new (.ok next)) (id : CellId) :
    (next.story.cell? id).map commitOf =
      (lastCommit new id).or ((draft.story.cell? id).map commitOf) := by
  cases h with
  | openFirst =>
      rw [lastCommit_opened, orphanEvents_eq, lastCommit_droppedEvents, Option.none_or]
  | @openNext name label cell =>
      rw [← List.singleton_append, ← List.append_assoc, lastCommit_opened, lastCommit_append,
        orphanEvents_eq, lastCommit_droppedEvents, Option.or_none]
      exact lastCommit_commit draft.story cell id
  | _ => simp [lastCommit, Event.committed?, Story.cell?, Story.withItems]

theorem Reached.stored (h : Reached compiledAt earlier draft events) (id : CellId) :
    (draft.story.cell? id).map commitOf = lastCommit events id := by
  induction h with
  | start => rfl
  | read _ hstep ih => rw [hstep.stored, ih, lastCommit_append]

theorem sum_share_close (draft : Draft) :
    (draft.close.1.map Event.share).sum = draft.orphans := by
  cases hc : draft.current with
  | none => simp only [close, hc, sum_share_orphanEvents]
  | some cell => simp [close, hc, sum_share_orphanEvents, Event.share]

theorem filterMap_line?_close (draft : Draft) : draft.close.1.filterMap Event.line? = [] := by
  cases hc : draft.current with
  | none => simp only [close, hc, orphanEvents_eq, filterMap_line?_droppedEvents]
  | some cell =>
      simp only [close, hc, orphanEvents_eq, List.filterMap_append, filterMap_line?_droppedEvents]
      rfl

theorem stored_close (draft : Draft) (id : CellId) :
    (draft.close.2.story.cell? id).map commitOf =
      (lastCommit draft.close.1 id).or ((draft.story.cell? id).map commitOf) := by
  cases hc : draft.current with
  | none => simp only [close, hc, orphanEvents_eq, lastCommit_droppedEvents, Option.none_or]
  | some cell =>
      simp only [close, hc, orphanEvents_eq, lastCommit_append, lastCommit_droppedEvents,
        Option.or_none]
      exact lastCommit_commit draft.story cell id

/-- What is reported of a source that went through. -/
theorem Reached.accounts (h : Reached compiledAt earlier draft events) :
    Accounts earlier.length (events ++ draft.close.1) := by
  have hb := h.told.close
  refine ⟨?_, ?_, hb.titleFirst, hb.droppedFirst, fun count => hb.dropped_pos, hb⟩
  · rw [List.map_append, List.sum_append, sum_share_close, h.shares]
  · rw [List.filterMap_append, filterMap_line?_close, List.append_nil]
    exact h.numbers.1

/-- What is reported in front of the line after those that were read. -/
theorem Reached.breaksOff (h : Reached compiledAt earlier draft events) :
    BreaksOff (earlier.length + 1) events := by
  refine ⟨fun m hm => Nat.lt_succ_of_le (h.numbers.2 m hm), ?_⟩
  cases h.told with
  | front hc hfront htitle =>
      have hb := bracketed_front hfront htitle 0
      rw [show droppedEvents 0 = [] from rfl, List.append_nil] at hb
      exact ⟨none, hb, fun _ e he => (hfront e he).not_dropped.2⟩
  | @visit _ v _ _ _ _ _ hb => exact ⟨some v, hb, fun hv => nomatch hv⟩

end Draft

/-! ## Compiling -/

/-- A compilation that goes through accounts for every line, and its story has the cells it
reports as stored; one that stops accounts for lines in front of the fault. -/
theorem events_of_compile (compiledAt : Timestamp) (source : String) :
    (∀ story, (compile compiledAt source).result = .ok story →
      Accounts (splitLines source.toList).length (compile compiledAt source).events ∧
        ∀ id, (story.cell? id).map commitOf =
          lastCommit (compile compiledAt source).events id) ∧
    ∀ e, (compile compiledAt source).result = .error e →
      ∃ line, e.line? = some line ∧ line ≤ (splitLines source.toList).length ∧
        BreaksOff line (compile compiledAt source).events := by
  constructor
  · intro story hstory
    obtain ⟨draft, events, hr, rfl, hevents⟩ := exists_reached_of_result hstory
    rw [hevents]
    refine ⟨hr.accounts, fun id => ?_⟩
    rw [Draft.stored_close, hr.stored, Draft.lastCommit_append]
  · intro e he
    obtain ⟨earlier, raw, later, draft, hlines, hr, hstep⟩ := exists_fault_of_result he
    refine ⟨earlier.length + 1, hstep.fault.2, ?_, hr.breaksOff⟩
    rw [hlines, List.length_append, List.length_cons]
    omega

/-- The gate is opened twice, and there are lines in front of it. -/
def revisitedSource : String :=
  "
A walk
a stray line
another
%lamp A lamp
:Gate
Open.
:Cave
:Gate
%rope A rope

Closed.
For the night."

/-- The same with a fault behind the second gate. -/
def brokenOffSource : String := revisitedSource ++ "\n^here"

theorem events_of_compile_revisited :
    ∃ story, (compile .epoch revisitedSource).result = .ok story ∧
      Accounts 13 (compile .epoch revisitedSource).events ∧
      (story.cell? (.ofName "Gate")).map commitOf = some ("Gate", 2) ∧
      (compile .epoch brokenOffSource).result = .error (.unexpectedGlyph 14 "^here") ∧
      BreaksOff 14 (compile .epoch brokenOffSource).events := by
  have hok : (compile .epoch revisitedSource).result.toOption.isSome = true := by decide +kernel
  have hlength : (splitLines revisitedSource.toList).length = 13 := by decide +kernel
  have hlast : lastCommit (compile .epoch revisitedSource).events (.ofName "Gate") =
      some ("Gate", 2) := by decide +kernel
  have hbroken : (compile .epoch brokenOffSource).result =
      .error (.unexpectedGlyph 14 "^here") := by decide +kernel
  obtain ⟨story, hr⟩ := exists_eq_ok_of_isSome hok
  obtain ⟨haccounts, hstored⟩ := (events_of_compile .epoch revisitedSource).1 story hr
  obtain ⟨line, hline, -, hbreaks⟩ := (events_of_compile .epoch brokenOffSource).2 _ hbroken
  obtain rfl : 14 = line := Option.some.inj hline
  rw [hlength] at haccounts
  exact ⟨story, hr, haccounts, (hstored _).trans hlast, hbroken, hbreaks⟩

end Gamebook.Source
