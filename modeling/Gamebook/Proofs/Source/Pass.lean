/-
# The pass, line by line

What the compiler does with a line depends on the line and the draft it holds.
`Step` lists all of it: nine ways, each with what is reported and what comes of the
draft.  A line is a fault in two of them, and then nothing is reported.

`Reached` is the pass as far as it got: the lines read, the draft they leave and the
events so far.  A compilation either goes through all lines and stores the open
cell, or stops at a line that is a fault in the draft reached in front of it
(`compile_cases`).  The lines of a source in front of some line are therefore reached
in the same way whatever stands behind (`Reached.readAll`).

Main statements: `step_read`, `compile_cases`, `exists_reached_iff`.
-/
import Gamebook.Proofs.Source.Compile
import Gamebook.Proofs.Source.Lines

namespace Gamebook.Source

open Registry (definedNames itemsOf)

namespace Draft

/-! ## One line -/

/-- The line is read as a statement: it is not blank, and it is not the title. -/
structure Takes (draft : Draft) (raw : List Char) (s : Statement) : Prop where
  kept : (clean raw).isEmpty = false
  untitled : draft.titleSeen = true ∨ beginsWithDirective (clean raw) = true
  reads : Statement.classify (clean raw) = s

/-- What reading a line can do, with the events it reports and the draft or fault it ends in. -/
inductive Step (draft : Draft) (number : Nat) (raw : List Char) :
    List Event → Except CompileError Draft → Prop
  | blank : (clean raw).isEmpty = true →
      Step draft number raw [.blankLine number] (.ok draft)
  | title : (clean raw).isEmpty = false → draft.titleSeen = false →
      beginsWithDirective (clean raw) = false →
      Step draft number raw [.titleFound number (String.ofList (clean raw))]
        (.ok ⟨{ draft.story with title := String.ofList (clean raw) }, draft.current,
          draft.orphans, true⟩)
  | openFirst {name : String} {label : Option String} :
      draft.Takes raw (.openCell name label) → draft.current = none →
      Step draft number raw (draft.orphanEvents ++ [.cellOpened number name label])
        (.ok ⟨draft.story, some ⟨name, label, []⟩, 0, true⟩)
  | openNext {name : String} {label : Option String} {cell : Cell} :
      draft.Takes raw (.openCell name label) → draft.current = some cell →
      Step draft number raw
        (draft.orphanEvents ++
          [.cellCommitted cell.name cell.id cell.lines.length, .cellOpened number name label])
        (.ok ⟨draft.story.insertCell cell, some ⟨name, label, []⟩, 0, true⟩)
  | define {name description : String} {item : Item} {items : Registry} :
      draft.Takes raw (.defineItem name description) →
      draft.story.items.define name description = .ok (item, items) →
      Step draft number raw [.itemDefined number item.name item.bit]
        (.ok ⟨draft.story.withItems items, draft.current, draft.orphans, true⟩)
  | append {line : Line} {cell : Cell} :
      draft.Takes raw (.content line) → draft.current = some cell →
      Step draft number raw [.lineAppended number cell.name]
        (.ok ⟨draft.story, some { cell with lines := cell.lines ++ [line] }, draft.orphans, true⟩)
  | drop {line : Line} : draft.Takes raw (.content line) → draft.current = none →
      Step draft number raw [] (.ok ⟨draft.story, none, draft.orphans + 1, true⟩)
  | refuse {word : String} : draft.Takes raw (.refused word) →
      Step draft number raw [] (.error (.unexpectedGlyph number word))
  | full {name description : String} :
      draft.Takes raw (.defineItem name description) →
      draft.story.items.lookup? name = none → capacity ≤ draft.story.items.size →
      Step draft number raw [] (.error (.item number (.registryFull name)))

/-- A line that is read as a statement is applied, with the title settled. -/
theorem Takes.read_eq {draft : Draft} {raw : List Char} {s : Statement} (h : draft.Takes raw s)
    (number : Nat) : draft.read number raw = { draft with titleSeen := true }.apply number s := by
  have ht : (!draft.titleSeen && !beginsWithDirective (clean raw)) = false := by
    rcases h.untitled with h | h <;> simp [h]
  simp only [read, h.kept, ht, Bool.false_eq_true, if_false]
  rw [Statement.ofLine_eq_classify, h.reads]

theorem Takes.step {draft : Draft} {raw : List Char} {s : Statement} (h : draft.Takes raw s)
    (number : Nat) :
    Step draft number raw (draft.read number raw).1 (draft.read number raw).2 := by
  rw [h.read_eq]
  cases s with
  | openCell name label =>
      cases hc : draft.current with
      | none => exact .openFirst h hc
      | some cell =>
          simp only [apply, close, List.append_assoc]
          exact .openNext h hc
  | defineItem name description =>
      rcases Registry.define_cases draft.story.items name description with
        ⟨item, -, hd⟩ | ⟨fresh, room, hd⟩ | ⟨fresh, full, hd⟩
      · simp only [apply, hd]
        exact @Step.define _ _ _ _ _ { item with description } _ h hd
      · simp only [apply, hd]
        exact .define h hd
      · simp only [apply, hd]
        exact .full h fresh full
  | content line =>
      cases hc : draft.current with
      | none => exact .drop h hc
      | some cell => exact .append h hc
  | refused word => exact .refuse h

/-- Reading a line is one of the steps. -/
theorem step_read (draft : Draft) (number : Nat) (raw : List Char) :
    Step draft number raw (draft.read number raw).1 (draft.read number raw).2 := by
  cases hkept : (clean raw).isEmpty with
  | true =>
      rw [read_blank hkept]
      exact .blank hkept
  | false =>
      by_cases ht : draft.titleSeen = false ∧ beginsWithDirective (clean raw) = false
      · have hread : draft.read number raw =
            ([.titleFound number (String.ofList (clean raw))],
              .ok ⟨{ draft.story with title := String.ofList (clean raw) }, draft.current,
                draft.orphans, true⟩) := by
          simp [read, hkept, ht.1, ht.2]
        rw [hread]
        exact .title hkept ht.1 ht.2
      · have huntitled : draft.titleSeen = true ∨ beginsWithDirective (clean raw) = true := by
          simpa only [not_and_or, Bool.not_eq_false] using ht
        exact Takes.step ⟨hkept, huntitled, rfl⟩ number

theorem Step.read_eq {draft : Draft} {number : Nat} {raw : List Char} {events : List Event}
    {result : Except CompileError Draft} (h : Step draft number raw events result) :
    draft.read number raw = (events, result) := by
  cases h with
  | blank hkept => exact read_blank hkept
  | title hkept ht hb => simp [read, hkept, ht, hb]
  | openFirst h hc => simp [h.read_eq, apply, close, orphanEvents, hc]
  | openNext h hc => simp [h.read_eq, apply, close, orphanEvents, hc]
  | define h hd => simp [h.read_eq, apply, hd, Story.withItems]
  | append h hc => simp [h.read_eq, apply, Draft.append, hc]
  | drop h hc => simp [h.read_eq, apply, Draft.append, hc]
  | refuse h => exact h.read_eq number
  | @full name description h fresh full =>
      rcases Registry.define_cases draft.story.items name description with
        ⟨item, hl, -⟩ | ⟨-, room, -⟩ | ⟨-, -, hd⟩
      · exact absurd (hl.symm.trans fresh) (by simp)
      · exact absurd room (Nat.not_lt_of_le full)
      · simp [h.read_eq, apply, hd]

/-- A fault reports nothing and names its line. -/
theorem Step.fault {draft : Draft} {number : Nat} {raw : List Char} {events : List Event}
    {e : CompileError} (h : Step draft number raw events (.error e)) :
    events = [] ∧ e.line? = some number := by
  cases h <;> exact ⟨rfl, rfl⟩

/-- The two ways in which a line is a fault. -/
theorem Step.fault_cases {draft : Draft} {number : Nat} {raw : List Char} {events : List Event}
    {e : CompileError} (h : Step draft number raw events (.error e)) :
    (∃ word, draft.Takes raw (.refused word) ∧ e = .unexpectedGlyph number word) ∨
      ∃ name description, draft.Takes raw (.defineItem name description) ∧
        draft.story.items.lookup? name = none ∧ capacity ≤ draft.story.items.size ∧
        e = .item number (.registryFull name) := by
  cases h with
  | @refuse word h => exact Or.inl ⟨word, h, rfl⟩
  | @full name description h fresh full => exact Or.inr ⟨name, description, h, fresh, full, rfl⟩

/-! ## As far as the pass got -/

/-- The draft and the events after lines that were read from the start without a fault. -/
inductive Reached (compiledAt : Timestamp) : List (List Char) → Draft → List Event → Prop
  | start : Reached compiledAt [] (.start compiledAt) []
  | read {earlier : List (List Char)} {raw : List Char} {draft next : Draft}
      {events new : List Event} :
      Reached compiledAt earlier draft events →
      Step draft (earlier.length + 1) raw new (.ok next) →
      Reached compiledAt (earlier ++ [raw]) next (events ++ new)

variable {compiledAt : Timestamp} {earlier : List (List Char)} {draft : Draft} {events : List Event}

/-- From where it got the pass goes on as it does from the start. -/
theorem Reached.readAll (h : Reached compiledAt earlier draft events) :
    ∀ raws, (Draft.start compiledAt).readAll 1 (earlier ++ raws) =
      (events ++ (draft.readAll (earlier.length + 1) raws).1,
        (draft.readAll (earlier.length + 1) raws).2) := by
  induction h with
  | start => intro raws; rfl
  | @read earlier raw draft next events new _ hstep ih =>
      intro raws
      have hlength : (earlier ++ [raw]).length = earlier.length + 1 := by simp
      rw [List.append_assoc, List.singleton_append, ih, Draft.readAll, hstep.read_eq, hlength,
        List.append_assoc]

/-- The pass goes through, or it stops at a line that is a fault in the draft in front of it. -/
theorem Reached.cases_readAll (raws : List (List Char)) :
    ∀ {earlier draft events}, Reached compiledAt earlier draft events →
      (∃ next new, Reached compiledAt (earlier ++ raws) next (events ++ new) ∧
        draft.readAll (earlier.length + 1) raws = (new, .ok next)) ∨
      (∃ before raw after stopped new e, raws = before ++ raw :: after ∧
        Reached compiledAt (earlier ++ before) stopped (events ++ new) ∧
        Step stopped ((earlier ++ before).length + 1) raw [] (.error e) ∧
        draft.readAll (earlier.length + 1) raws = (new, .error e)) := by
  induction raws with
  | nil =>
      intro earlier draft events h
      refine Or.inl ⟨draft, [], ?_, rfl⟩
      rwa [List.append_nil, List.append_nil]
  | cons raw raws ih =>
      intro earlier draft events h
      have hstep := step_read draft (earlier.length + 1) raw
      cases hread : draft.read (earlier.length + 1) raw with
      | mk new result =>
          rw [hread] at hstep
          rw [Draft.readAll, hread]
          cases result with
          | error e =>
              obtain ⟨rfl, -⟩ := hstep.fault
              refine Or.inr ⟨[], raw, raws, draft, [], e, rfl, ?_, ?_, rfl⟩
              · rwa [List.append_nil, List.append_nil]
              · rwa [List.append_nil]
          | ok next =>
              have hnext := h.read hstep
              have hlength : (earlier ++ [raw]).length = earlier.length + 1 := by simp
              rcases ih hnext with ⟨last, later, hlast, hall⟩ |
                ⟨before, bad, after, stopped, later, e, rfl, hstopped, hbad, hall⟩
              · refine Or.inl ⟨last, new ++ later, ?_, ?_⟩
                · simpa only [List.append_assoc, List.singleton_append] using hlast
                · rw [hlength] at hall
                  simp only [hall]
              · refine Or.inr ⟨raw :: before, bad, after, stopped, new ++ later, e, rfl, ?_, ?_, ?_⟩
                · simpa only [List.append_assoc, List.singleton_append] using hstopped
                · simpa only [List.append_assoc, List.singleton_append] using hbad
                · rw [hlength] at hall
                  simp only [hall]

/-! ## What was read is what the outline says -/

/-- The title is settled as soon as a line was kept. -/
theorem Reached.titleSeen_eq (h : Reached compiledAt earlier draft events) :
    draft.titleSeen = !(keptOf earlier).isEmpty := by
  induction h with
  | start => rfl
  | read _ hstep ih =>
      rw [keptOf_append]
      cases hstep with
      | blank hblank => rw [keptOf_cons_of_blank hblank, ih]; simp [keptOf]
      | title hkept => simp [keptOf_cons hkept]
      | openFirst h => simp [keptOf_cons h.kept]
      | openNext h => simp [keptOf_cons h.kept]
      | define h => simp [keptOf_cons h.kept]
      | append h => simp [keptOf_cons h.kept]
      | drop h => simp [keptOf_cons h.kept]

/-- Which lines go through, and the story that is then in hand with the open cell stored. -/
theorem readAll_finished_eq_some_iff (compiledAt : Timestamp) {raws : List (List Char)}
    {story : Story} :
    ((Draft.start compiledAt).readAll 1 raws).2.toOption.map finished = some story ↔
      (∀ word, Statement.refused word ∉ (Outline.ofKept (keptOf raws)).statements) ∧
        ∃ items, Registry.empty.defineAll?
            (definitionsOf (Outline.ofKept (keptOf raws)).statements) = some items ∧
          ((Story.empty (Outline.ofKept (keptOf raws)).title compiledAt).withItems
            items).insertCells (cellsOf (Outline.ofKept (keptOf raws)).statements) = story := by
  rw [readAll_start, run?_finished_eq_some_iff]
  rfl

theorem Reached.finished_eq (h : Reached compiledAt earlier draft events) :
    ((Draft.start compiledAt).readAll 1 earlier).2.toOption.map finished = some draft.finished := by
  have hall := h.readAll []
  rw [List.append_nil] at hall
  rw [hall]
  rfl

/-- The items so far are those of the definitions so far. -/
theorem Reached.items_eq (h : Reached compiledAt earlier draft events) :
    draft.story.items.items =
      itemsOf (definitionsOf (Outline.ofKept (keptOf earlier)).statements) := by
  obtain ⟨-, items, hitems, hstory⟩ := (readAll_finished_eq_some_iff compiledAt).mp h.finished_eq
  have hsame : draft.story.items = items := by
    rw [← Story.items_insertCells draft.current.toList, ← close_story]
    show draft.finished.items = items
    rw [← hstory, Story.items_insertCells]
    rfl
  rw [hsame]
  exact Registry.items_of_defineAll? hitems

/-- Lines are read without a fault exactly if their outline has nothing to refuse. -/
theorem exists_reached_iff (compiledAt : Timestamp) {raws : List (List Char)} :
    (∃ draft events, Reached compiledAt raws draft events) ↔
      (Outline.ofKept (keptOf raws)).Accepted := by
  constructor
  · rintro ⟨draft, events, h⟩
    obtain ⟨hrefused, items, hitems, -⟩ :=
      (readAll_finished_eq_some_iff compiledAt).mp h.finished_eq
    exact ⟨hrefused, Registry.exists_defineAll?_iff.mp ⟨items, hitems⟩⟩
  · rintro ⟨hrefused, hroom⟩
    obtain ⟨items, hitems⟩ := Registry.exists_defineAll?_iff.mpr hroom
    have hfinished := (readAll_finished_eq_some_iff compiledAt).mpr ⟨hrefused, items, hitems, rfl⟩
    have hstart : Reached compiledAt [] (.start compiledAt) [] := .start
    rcases hstart.cases_readAll raws with
      ⟨draft, new, h, -⟩ | ⟨-, -, -, -, new, e, -, -, -, hall⟩
    · exact ⟨draft, new, h⟩
    · have hall : (Draft.start compiledAt).readAll 1 raws = (new, .error e) := hall
      rw [hall] at hfinished
      exact absurd hfinished (by simp [Except.toOption])

end Draft

/-! ## Compiling -/

open Draft (Reached Step)

/-- A compilation goes through all lines and stores the open cell, or it stops at the first line
that is a fault. -/
theorem compile_cases (compiledAt : Timestamp) (source : String) :
    (∃ draft events, Reached compiledAt (splitLines source.toList) draft events ∧
      compile compiledAt source = ⟨events ++ draft.close.1, .ok draft.close.2.story⟩) ∨
    (∃ earlier raw later draft events e, splitLines source.toList = earlier ++ raw :: later ∧
      Reached compiledAt earlier draft events ∧
      Step draft (earlier.length + 1) raw [] (.error e) ∧
      compile compiledAt source = ⟨events, .error e⟩) := by
  have hstart : Reached compiledAt [] (.start compiledAt) [] := .start
  rcases hstart.cases_readAll (splitLines source.toList) with
    ⟨draft, events, hr, hall⟩ | ⟨earlier, raw, later, draft, events, e, hlines, hr, hstep, hall⟩
  · have hall : (Draft.start compiledAt).readAll 1 (splitLines source.toList) =
        (events, .ok draft) := hall
    refine Or.inl ⟨draft, events, hr, ?_⟩
    rw [compile, hall]
  · have hall : (Draft.start compiledAt).readAll 1 (splitLines source.toList) =
        (events, .error e) := hall
    refine Or.inr ⟨earlier, raw, later, draft, events, e, hlines, hr, hstep, ?_⟩
    rw [compile, hall]

/-- A story that was compiled is what the draft behind the last line makes once it is closed, and
what the closing reports comes last. -/
theorem exists_reached_of_result {compiledAt : Timestamp} {source : String} {story : Story}
    (h : (compile compiledAt source).result = .ok story) :
    ∃ draft events, Reached compiledAt (splitLines source.toList) draft events ∧
      draft.close.2.story = story ∧
      (compile compiledAt source).events = events ++ draft.close.1 := by
  rcases compile_cases compiledAt source with
    ⟨draft, events, hr, hcompile⟩ | ⟨earlier, raw, later, draft, events, e, -, -, -, hcompile⟩
  · rw [hcompile] at h ⊢
    exact ⟨draft, events, hr, Except.ok.inj h, rfl⟩
  · rw [hcompile] at h
    exact nomatch h

/-- A compilation that fails has reported what the lines in front of the fault report. -/
theorem exists_fault_of_result {compiledAt : Timestamp} {source : String} {e : CompileError}
    (h : (compile compiledAt source).result = .error e) :
    ∃ earlier raw later draft, splitLines source.toList = earlier ++ raw :: later ∧
      Reached compiledAt earlier draft (compile compiledAt source).events ∧
      Step draft (earlier.length + 1) raw [] (.error e) := by
  rcases compile_cases compiledAt source with
    ⟨draft, events, -, hcompile⟩ |
      ⟨earlier, raw, later, draft, events, e', hlines, hr, hstep, hcompile⟩
  · rw [hcompile] at h
    exact nomatch h
  · rw [hcompile] at h ⊢
    obtain rfl := Except.error.inj h
    exact ⟨earlier, raw, later, draft, hlines, hr, hstep⟩

end Gamebook.Source
