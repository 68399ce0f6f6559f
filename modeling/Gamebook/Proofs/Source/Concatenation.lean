/-
# A source behind another

Two sources that compile are put one behind the other, with a line feed between
them.  At the seam the compiler has a title or none yet, a cell open or lines to
drop, and some bits taken, while the second source by itself finds nothing of this.
If the second opens a cell with its first line, none of it shows: the outline of
the two is one outline behind the other (`outline_append`), and no line of the
second falls to the last cell of the first (`cellsOf_append`).

What can fail is the number of items alone, and then in a line of the second.

Main statement: `compile_append`.
-/
import Gamebook.Proofs.Registry.Joined
import Gamebook.Proofs.Source.Fault

namespace Gamebook

open Registry (definedNames itemsOf joinedNames)

/-- One story with another behind it: what both have is as the second has it, but for the title
and the places of the items. -/
structure Story.Joins (a b joined : Story) : Prop where
  title : joined.title = a.title
  cells : ∀ id, joined.cell? id = (b.cell? id).or (a.cell? id)
  names : joined.items.names = joinedNames a.items b.items
  descriptions : ∀ name,
    joined.items.describe? name = (b.items.describe? name).or (a.items.describe? name)

namespace Source

/-- The first line that is not blank begins with the opening of a cell. -/
def OpensWithCell (source : String) : Prop :=
  ∃ line lines word rest name, keptLines source = line :: lines ∧ words line = word :: rest ∧
    Directive.ofWord? word = some ⟨.cell, name⟩

/-! ## Outlines -/

theorem splitLines_append (a b : String) :
    splitLines (a ++ "\n" ++ b).toList =
      splitLines (a ++ "\n").toList ++ splitLines b.toList := by
  rw [String.toList_append, String.toList_append, List.append_assoc]
  exact splitLines_append_newline a.toList b.toList

theorem keptLines_append (a b : String) :
    keptLines (a ++ "\n" ++ b) = keptLines a ++ keptLines b := by
  have ha : keptOf (splitLines (a ++ "\n").toList) = keptLines a := by
    rw [String.toList_append]
    exact keptOf_splitLines_newline a.toList
  rw [keptLines, splitLines_append, keptOf_append, ha]
  rfl

section OpensWithCell

variable {a b : String} (h : OpensWithCell b)
include h

/-- It has no title, and its first statement opens a cell. -/
theorem OpensWithCell.outline_eq :
    outline b = ⟨"", (keptLines b).map Statement.classify⟩ ∧
      ∃ name label rest, (outline b).statements = .openCell name label :: rest := by
  obtain ⟨line, lines, word, rest, name, hkept, hwords, hcell⟩ := h
  have hbegins : beginsWithDirective line = true := by simp [beginsWithDirective, hwords, hcell]
  have hleading : isLeading word = false := isLeading_of_ofWord? hcell
  have hb : outline b = ⟨"", (keptLines b).map Statement.classify⟩ := by
    rw [outline, hkept, Outline.ofKept, if_pos hbegins]
  refine ⟨hb, name, nonempty? (textOf rest), lines.map Statement.classify, ?_⟩
  rw [hb, hkept, List.map_cons, Statement.classify, hwords]
  simp [hleading, Statement.ofRemainder, hcell]

/-- Its lines are the same statements behind whatever they stand. -/
theorem OpensWithCell.outline_append :
    outline (a ++ "\n" ++ b) =
      ⟨(outline a).title, (outline a).statements ++ (outline b).statements⟩ := by
  obtain ⟨hb, -⟩ := h.outline_eq
  by_cases ha : keptLines a = []
  · have hempty : outline a = ⟨"", []⟩ := by rw [outline, ha]; rfl
    rw [outline, keptLines_append, ha, List.nil_append, ← outline, hempty, hb]
    rfl
  · rw [outline, keptLines_append, Outline.ofKept_append ha, hb]
    rfl

end OpensWithCell

/-! ## Cells -/

/-- An opening ends the lines of the cell in front. -/
theorem linesAhead_append (ss : List Statement) (name : String) (label : Option String)
    (rest : List Statement) :
    linesAhead (ss ++ .openCell name label :: rest) = linesAhead ss := by
  rw [linesAhead, linesAhead, List.takeWhile_append]
  split
  next hall =>
    rw [List.Sublist.eq_of_length (List.takeWhile_sublist _) hall]
    simp [Statement.opensCell]
  next => rfl

theorem cellsOf_append (ss : List Statement) (name : String) (label : Option String)
    (rest : List Statement) :
    cellsOf (ss ++ .openCell name label :: rest) =
      cellsOf ss ++ cellsOf (.openCell name label :: rest) := by
  induction ss with
  | nil => rfl
  | cons s ss ih =>
      cases s with
      | openCell name' label' =>
          rw [List.cons_append, cellsOf, cellsOf, ih, linesAhead_append]
          rfl
      | defineItem name' description => exact ih
      | content line => exact ih
      | refused word => exact ih

/-! ## Compiling -/

/-- A fault of the two lies in a line of the second. -/
theorem exists_line_of_fault {ta t : Timestamp} {a b : String} {x : Story} {e : CompileError}
    (hx : (compile ta a).result = .ok x)
    (he : (compile t (a ++ "\n" ++ b)).result = .error e) :
    ∃ earlier raw later, splitLines b.toList = earlier ++ raw :: later ∧
      FaultAt (splitLines (a ++ "\n").toList ++ earlier) raw e := by
  obtain ⟨earlier, raw, later, hlines, haccepted, hfault⟩ := result_eq_error_iff.mp he
  rw [splitLines_append, List.append_eq_append_iff] at hlines
  -- were the line one of the first, the first would fail by itself
  have hfirst : ∀ rest, splitLines (a ++ "\n").toList ≠ earlier ++ raw :: rest := by
    intro rest hrest
    have hfails : (compile ta (a ++ "\n")).result = .error e :=
      result_eq_error_iff.mpr ⟨earlier, raw, rest, hrest, haccepted, hfault⟩
    have hkept : outline (a ++ "\n") = outline a := by
      rw [outline, outline, keptLines, String.toList_append]
      exact congrArg Outline.ofKept (keptOf_splitLines_newline a.toList)
    have hcompiles : (outline (a ++ "\n")).Accepted :=
      hkept ▸ (exists_result_eq_ok_iff ta).mp ⟨x, hx⟩
    obtain ⟨story, hstory⟩ := (exists_result_eq_ok_iff ta).mpr hcompiles
    exact absurd (hstory.symm.trans hfails) (by simp)
  rcases hlines with ⟨front, hearlier, hb⟩ | ⟨behind, ha, hraw⟩
  · exact ⟨front, raw, later, hb, hearlier ▸ hfault⟩
  · cases behind with
    | nil =>
        rw [List.append_nil] at ha
        exact ⟨[], raw, later, hraw.symm, by rwa [List.append_nil, ha]⟩
    | cons first rest =>
        obtain ⟨rfl, -⟩ := List.cons.inj hraw
        exact absurd ha (hfirst rest)

section Compile

variable {ta tb t : Timestamp} {a b : String} {x y : Story}
variable (hx : (compile ta a).result = .ok x) (hy : (compile tb b).result = .ok y)
variable (hb : OpensWithCell b)
include hx hy hb

theorem joins_of_result {joined : Story}
    (hjoined : (compile t (a ++ "\n" ++ b)).result = .ok joined) : x.Joins y joined := by
  have dx := describes_of_result hx
  have dy := describes_of_result hy
  have dj := describes_of_result hjoined
  rw [hb.outline_append] at dj
  have hitems : joined.items.items =
      itemsOf (definitionsOf (outline a).statements ++ definitionsOf (outline b).statements) := by
    rw [dj.items, definitionsOf_append]
  constructor
  · rw [dj.title, dx.title]
  · intro id
    obtain ⟨-, name, label, rest, hrest⟩ := hb.outline_eq
    have hcells : cellsOf ((outline a).statements ++ (outline b).statements) =
        cellsOf (outline a).statements ++ cellsOf (outline b).statements := by
      rw [hrest, cellsOf_append]
    rw [dj.cells, hcells, List.reverse_append, List.find?_append, dx.cells, dy.cells]
  · exact Registry.names_append dx.items dy.items hitems
  · exact Registry.describe?_append dx.items dy.items hitems

/-- Only the number of items decides whether the two go together. -/
theorem accepted_append_iff :
    (outline (a ++ "\n" ++ b)).Accepted ↔
      (x.items.names.toFinset ∪ y.items.names.toFinset).card ≤ capacity := by
  obtain ⟨hrefusedA, -⟩ := (exists_result_eq_ok_iff ta).mp ⟨x, hx⟩
  obtain ⟨hrefusedB, -⟩ := (exists_result_eq_ok_iff tb).mp ⟨y, hy⟩
  have hnames : definedNames (definitionsOf ((outline a).statements ++ (outline b).statements)) =
      joinedNames x.items y.items := by
    rw [definitionsOf_append, Registry.definedNames_append, joinedNames,
      Registry.names_of_items (describes_of_result hx).items,
      Registry.names_of_items (describes_of_result hy).items]
  rw [hb.outline_append, Outline.Accepted, hnames, Registry.length_joinedNames]
  refine ⟨fun h => h.2, fun h => ⟨fun word hw => ?_, h⟩⟩
  rcases List.mem_append.mp hw with hw | hw
  · exact hrefusedA word hw
  · exact hrefusedB word hw

/-- Two sources that compile, the second of which opens a cell with its first line, compile one
behind the other to the one story with the other behind it if there is a bit for each name that
either defines.  If not, they fail at a line of the second that defines an item. -/
theorem compile_append :
    ((x.items.names.toFinset ∪ y.items.names.toFinset).card ≤ capacity →
      ∃ joined, (compile t (a ++ "\n" ++ b)).result = .ok joined ∧ x.Joins y joined) ∧
    (capacity < (x.items.names.toFinset ∪ y.items.names.toFinset).card →
      ∃ i name, i < (splitLines b.toList).length ∧
        (compile t (a ++ "\n" ++ b)).result =
          .error (.item ((splitLines (a ++ "\n").toList).length + i + 1)
            (.registryFull name))) := by
  have haccepted := accepted_append_iff hx hy hb
  constructor
  · intro hroom
    obtain ⟨joined, hjoined⟩ :=
      (exists_result_eq_ok_iff t).mpr (haccepted.mpr hroom)
    exact ⟨joined, hjoined, joins_of_result hx hy hb hjoined⟩
  · intro hfull
    cases hresult : (compile t (a ++ "\n" ++ b)).result with
    | ok joined =>
        have hroom := haccepted.mp ((exists_result_eq_ok_iff t).mp ⟨joined, hresult⟩)
        exact absurd hroom (Nat.not_le_of_lt hfull)
    | error e =>
        obtain ⟨earlier, raw, later, hlines, hfault⟩ := exists_line_of_fault hx hresult
        rcases hfault with ⟨word, hword, -⟩ | ⟨name, -, rfl⟩
        · -- the second alone would be refused for that word
          obtain ⟨hkept, hs⟩ := hword.classify_eq
          obtain ⟨hrefused, -⟩ := (exists_result_eq_ok_iff tb).mp ⟨y, hy⟩
          refine absurd ?_ (hrefused word)
          rw [hb.outline_eq.1, keptLines, hlines, keptOf_append, keptOf_cons hkept]
          simp [hs]
        · refine ⟨earlier.length, name, ?_, ?_⟩
          · simp [hlines]
          · rw [List.length_append]

end Compile

/-- A first part that ends within a cell. -/
def daySource : String :=
  "A walk
stray words
%lamp A lamp
:Start The gate
?lamp >Cave Go in"

/-- A second part that describes the lamp anew and opens the gate again. -/
def nightSource : String :=
  "# after sunset
:Cave
%rope A rope
%lamp A brass lamp
:Start The gate at night
It is dark."

theorem compile_append_nightfall :
    ∃ x y joined, (compile .epoch daySource).result = .ok x ∧
      (compile .epoch nightSource).result = .ok y ∧ OpensWithCell nightSource ∧
      (x.items.names.toFinset ∪ y.items.names.toFinset).card = 2 ∧
      (compile .epoch (daySource ++ "\n" ++ nightSource)).result = .ok joined ∧
      x.Joins y joined := by
  have hday : (compile .epoch daySource).result.toOption.map (fun x => x.items.names) =
      some ["lamp"] := by decide +kernel
  have hnight : (compile .epoch nightSource).result.toOption.map (fun y => y.items.names) =
      some ["rope", "lamp"] := by decide +kernel
  obtain ⟨x, hx, hxnames⟩ := Option.map_eq_some_iff.mp hday
  obtain ⟨y, hy, hynames⟩ := Option.map_eq_some_iff.mp hnight
  rw [toOption_eq_some_iff] at hx hy
  have hopens : OpensWithCell nightSource :=
    ⟨":Cave".toList, (keptLines nightSource).tail, ":Cave".toList, [], "Cave",
      by decide +kernel, by decide +kernel, by decide +kernel⟩
  have hcard : (x.items.names.toFinset ∪ y.items.names.toFinset).card = 2 := by
    rw [hxnames, hynames]
    decide
  have hroom : (x.items.names.toFinset ∪ y.items.names.toFinset).card ≤ capacity := by
    rw [hcard]
    decide
  obtain ⟨joined, hjoined, hjoins⟩ := (compile_append (t := .epoch) hx hy hopens).1 hroom
  exact ⟨x, y, joined, hx, hy, hopens, hcard, hjoined, hjoins⟩

end Source

end Gamebook
