/-
# Where definitions stand

A line that defines an item says nothing about cells: between the lines of a cell it
neither ends the cell nor adds to it, and a line may speak of an item that is defined
further down.  So the lines of a source fall into two rows, those that define items and
all others, and the cells are read from the one row (`cellsOf_filter`) and the items
from the other (`definitionsOf_filter`).  How the two rows are woven together does not
show.

Only the first line is held in its place, because it decides about the title.

Main statement: `compile_of_interleaving`.
-/
import Gamebook.Proofs.Source.Layout
import Gamebook.Proofs.Source.Words

namespace Gamebook.Source

open Registry (definedNames)

/-! ## Two rows of statements

What defines an item is passed over by the readings of lines and cells, and only it is
looked at by the reading of items. -/

def Statement.defines : Statement → Bool
  | .defineItem .. => true
  | _ => false

theorem definitionsOf_filter (ss : List Statement) :
    definitionsOf (ss.filter fun s => s.defines) = definitionsOf ss := by
  induction ss with
  | nil => rfl
  | cons s ss ih =>
      cases s with
      | defineItem name description => exact congrArg ((name, description) :: ·) ih
      | openCell name label => exact ih
      | content line => exact ih
      | refused word => exact ih

theorem linesAhead_filter (ss : List Statement) :
    linesAhead (ss.filter fun s => !s.defines) = linesAhead ss := by
  induction ss with
  | nil => rfl
  | cons s ss ih =>
      cases s with
      | openCell name label => rfl
      | defineItem name description => exact ih
      | content line => exact congrArg (line :: ·) ih
      | refused word => exact ih

theorem cellsOf_filter (ss : List Statement) :
    cellsOf (ss.filter fun s => !s.defines) = cellsOf ss := by
  induction ss with
  | nil => rfl
  | cons s ss ih =>
      cases s with
      | openCell name label =>
          rw [List.filter_cons_of_pos rfl, cellsOf, cellsOf, ih, linesAhead_filter]
      | defineItem name description => exact ih
      | content line => exact ih
      | refused word => exact ih

theorem refused_mem_filter {ss : List Statement} {word : String} :
    Statement.refused word ∈ ss.filter (fun s => !s.defines) ↔ Statement.refused word ∈ ss := by
  rw [List.mem_filter]
  exact and_iff_left rfl

/-! ## Two rows of lines -/

/-- The deciding word of the line is `%` with a name. -/
def isDefinition (line : List Char) : Bool :=
  ((decidingWord? line).bind Directive.ofWord?).any fun d => d.glyph = .define

theorem isDefinition_eq_defines (line : List Char) :
    isDefinition line = (Statement.classify line).defines := by
  have hdefines : ∀ s : Statement,
      s.defines = true ↔ ∃ name description, s = .defineItem name description := by
    intro s
    cases s <;> simp [Statement.defines]
  rw [Bool.eq_iff_iff, hdefines]
  simp only [Statement.exists_classify_eq_defineItem_iff, isDefinition, Option.any_eq_true,
    Option.bind_eq_some_iff, decide_eq_true_eq]
  constructor
  · rintro ⟨⟨glyph, name⟩, ⟨word, hw, hd⟩, rfl⟩
    exact ⟨name, word, hw, hd⟩
  · rintro ⟨name, word, hw, hd⟩
    exact ⟨_, ⟨word, hw, hd⟩, rfl⟩

def definitionLines (lines : List (List Char)) : List (List Char) := lines.filter isDefinition

def otherLines (lines : List (List Char)) : List (List Char) :=
  lines.filter fun line => !isDefinition line

theorem map_classify_definitionLines (lines : List (List Char)) :
    (definitionLines lines).map .classify =
      (lines.map Statement.classify).filter fun s => s.defines := by
  rw [List.filter_map, definitionLines]
  exact congrArg _ (List.filter_congr fun line _ => isDefinition_eq_defines line)

theorem map_classify_otherLines (lines : List (List Char)) :
    (otherLines lines).map .classify =
      (lines.map Statement.classify).filter fun s => !s.defines := by
  rw [List.filter_map, otherLines]
  exact congrArg _ (List.filter_congr fun line _ => congrArg _ (isDefinition_eq_defines line))

theorem definitionLines_append (lines lines' : List (List Char)) :
    definitionLines (lines ++ lines') = definitionLines lines ++ definitionLines lines' :=
  List.filter_append ..

theorem otherLines_append (lines lines' : List (List Char)) :
    otherLines (lines ++ lines') = otherLines lines ++ otherLines lines' := List.filter_append ..

/-! ## Outlines of the same rows -/

/-- The first line is the title or a statement, and whatever follows is statements. -/
theorem Outline.exists_ofKept_cons (first : List Char) :
    ∃ title lead, ∀ rest, ofKept (first :: rest) = ⟨title, (lead ++ rest).map .classify⟩ := by
  cases hb : beginsWithDirective first with
  | true => exact ⟨"", [first], fun rest => by simp [ofKept, hb]⟩
  | false => exact ⟨String.ofList first, [], fun rest => by simp [ofKept, hb]⟩

theorem nodup_definedNames (ds : List (String × String)) : (definedNames ds).Nodup := by
  induction ds using List.reverseRecOn with
  | nil => exact .nil
  | append_singleton ds d ih =>
      obtain ⟨name, description⟩ := d
      rw [Registry.definedNames_concat]
      split
      next => exact ih
      next hnew => simpa [List.nodup_append] using ⟨ih, fun a ha e => hnew (e ▸ ha)⟩

/-- Definitions less make no more names. -/
theorem length_definedNames_le {ds ds' : List (String × String)} (h : ds.Sublist ds') :
    (definedNames ds).length ≤ (definedNames ds').length := by
  refine (List.subperm_of_subset (nodup_definedNames ds) fun name hname => ?_).length_le
  rw [Registry.mem_definedNames] at hname ⊢
  exact (h.map Prod.fst).subset hname

section Rows

variable {o o' : Outline} {lines lines' : List (List Char)}
variable (ho : o.statements = lines.map .classify) (ho' : o'.statements = lines'.map .classify)
variable (hothers : otherLines lines = otherLines lines')
include ho ho' hothers

theorem Outline.cellsOf_eq : cellsOf o.statements = cellsOf o'.statements := by
  rw [← cellsOf_filter o.statements, ← cellsOf_filter o'.statements, ho, ho',
    ← map_classify_otherLines, ← map_classify_otherLines, hothers]

/-- Definitions less are accepted with the same other lines. -/
theorem Outline.Accepted.of_sublist
    (hdefs : (definitionLines lines').Sublist (definitionLines lines)) (h : o.Accepted) :
    o'.Accepted := by
  obtain ⟨hrefused, hroom⟩ := h
  constructor
  · intro word hword
    rw [← refused_mem_filter, ho', ← map_classify_otherLines, ← hothers] at hword
    refine hrefused word ?_
    rwa [← refused_mem_filter, ho, ← map_classify_otherLines]
  · have hsub : (definitionsOf o'.statements).Sublist (definitionsOf o.statements) := by
      rw [← definitionsOf_filter o'.statements, ← definitionsOf_filter o.statements, ho, ho',
        ← map_classify_definitionLines, ← map_classify_definitionLines]
      exact (hdefs.map _).filterMap _
    exact Nat.le_trans (length_definedNames_le hsub) hroom

/-- The same title and the same two rows describe the same stories. -/
theorem Outline.Describes.congr (htitle : o'.title = o.title)
    (hdefs : definitionLines lines = definitionLines lines') {story : Story}
    (h : o.Describes story) : o'.Describes story where
  title := h.title.trans htitle.symm
  items := by
    rw [h.items, ← definitionsOf_filter o'.statements, ← definitionsOf_filter o.statements, ho, ho',
      ← map_classify_definitionLines, ← map_classify_definitionLines, hdefs]
  cells := fun id => by rw [h.cells, Outline.cellsOf_eq ho ho' hothers]

end Rows

/-! ## Sources of the same rows -/

/-- Two sources with the same first line and behind it the same definitions and the same other
lines, however they are woven together. -/
structure Interleaved (a b : String) : Prop where
  first : (keptLines a).head? = (keptLines b).head?
  definitions : definitionLines (keptLines a).tail = definitionLines (keptLines b).tail
  others : otherLines (keptLines a).tail = otherLines (keptLines b).tail

theorem Interleaved.exists_result {a b : String} (h : Interleaved a b) {ta : Timestamp} {x : Story}
    (hx : (compile ta a).result = .ok x) (tb : Timestamp) :
    ∃ y, (compile tb b).result = .ok y ∧ x.sameContent y = true := by
  cases hka : keptLines a with
  | nil =>
      have hkb : keptLines b = [] := by
        have hfirst := h.first
        rw [hka] at hfirst
        exact List.head?_eq_none_iff.mp hfirst.symm
      have hsame : outline b = outline a := by rw [outline, outline, hka, hkb]
      obtain ⟨y, hy⟩ := (exists_result_eq_ok_iff tb).mpr
        (hsame ▸ (exists_result_eq_ok_iff ta).mp ⟨x, hx⟩)
      exact ⟨y, hy, (describes_of_result hx).sameContent (hsame ▸ describes_of_result hy)⟩
  | cons first rest =>
      have hfirst := h.first
      rw [hka] at hfirst
      obtain ⟨rest', hkb⟩ := List.head?_eq_some_iff.mp hfirst.symm
      have hdefs := h.definitions
      have hothers := h.others
      rw [hka, hkb, List.tail_cons, List.tail_cons] at hdefs hothers
      obtain ⟨title, lead, hkept⟩ := Outline.exists_ofKept_cons first
      have hoa : outline a = ⟨title, (lead ++ rest).map .classify⟩ := by rw [outline, hka, hkept]
      have hob : outline b = ⟨title, (lead ++ rest').map .classify⟩ := by rw [outline, hkb, hkept]
      have hdefs' : definitionLines (lead ++ rest) = definitionLines (lead ++ rest') := by
        rw [definitionLines_append, definitionLines_append, hdefs]
      have hothers' : otherLines (lead ++ rest) = otherLines (lead ++ rest') := by
        rw [otherLines_append, otherLines_append, hothers]
      have haccepted := (exists_result_eq_ok_iff ta).mp ⟨x, hx⟩
      obtain ⟨y, hy⟩ := (exists_result_eq_ok_iff tb).mpr
        (haccepted.of_sublist (by rw [hoa]) (by rw [hob]) hothers' (hdefs' ▸ .refl _))
      refine ⟨y, hy, Outline.Describes.sameContent ?_ (describes_of_result hy)⟩
      exact (describes_of_result hx).congr (by rw [hoa]) (by rw [hob]) hothers' (by rw [hoa, hob])
        hdefs'

/-- Behind the first line a definition may be taken out and leaves the cells as they are. -/
theorem exists_result_without {a b : String} {front behind : List (List Char)} {line : List Char}
    (hd : isDefinition line = true) (hfront : front ≠ [])
    (ha : keptLines a = front ++ line :: behind) (hb : keptLines b = front ++ behind)
    {ta : Timestamp} {x : Story} (hx : (compile ta a).result = .ok x) (tb : Timestamp) :
    ∃ y, (compile tb b).result = .ok y ∧ y.title = x.title ∧ y.cells = x.cells := by
  obtain ⟨first, front, rfl⟩ := List.exists_cons_of_ne_nil hfront
  obtain ⟨title, lead, hkept⟩ := Outline.exists_ofKept_cons first
  have hoa : outline a = ⟨title, (lead ++ (front ++ line :: behind)).map .classify⟩ := by
    rw [outline, ha, List.cons_append, hkept]
  have hob : outline b = ⟨title, (lead ++ (front ++ behind)).map .classify⟩ := by
    rw [outline, hb, List.cons_append, hkept]
  have hothers : otherLines (lead ++ (front ++ line :: behind)) =
      otherLines (lead ++ (front ++ behind)) := by
    simp [otherLines, hd]
  have hdefs : (definitionLines (lead ++ (front ++ behind))).Sublist
      (definitionLines (lead ++ (front ++ line :: behind))) :=
    (((List.sublist_cons_self ..).append_left _).append_left _).filter _
  have haccepted := (exists_result_eq_ok_iff ta).mp ⟨x, hx⟩
  obtain ⟨y, hy⟩ := (exists_result_eq_ok_iff tb).mpr
    (haccepted.of_sublist (by rw [hoa]) (by rw [hob]) hothers hdefs)
  have hdx := describes_of_result hx
  have hdy := describes_of_result hy
  refine ⟨y, hy, ?_, Directory.ext_of_find? fun id => ?_⟩
  · rw [hdy.title, hdx.title, hoa, hob]
  · have hcells : cellsOf (outline a).statements = cellsOf (outline b).statements :=
      Outline.cellsOf_eq (by rw [hoa]) (by rw [hob]) hothers
    exact (hdy.cells id).trans (hcells ▸ (hdx.cells id).symm)

/-! ## Definitions behind everything else -/

/-- The text of given lines. -/
def ofLines (lines : List (List Char)) : String :=
  String.ofList (lines.flatMap fun line => line ++ ['\n'])

theorem Tidy.keptOf_singleton {line : List Char} (h : Tidy line) (hne : line ≠ []) :
    keptOf [line] = [line] := by
  rw [keptOf_cons (by rw [h.clean_eq]; exact List.isEmpty_eq_false_iff.mpr hne), h.clean_eq]
  rfl

/-- Tidy lines written one below the other are read as these lines. -/
theorem keptLines_ofLines {lines : List (List Char)} (h : ∀ line ∈ lines, line ≠ [] ∧ Tidy line) :
    keptLines (ofLines lines) = lines := by
  show keptIn (ofLines lines).toList = lines
  rw [ofLines, String.toList_ofList]
  induction lines with
  | nil => rfl
  | cons line lines ih =>
      obtain ⟨hne, htidy⟩ := h line List.mem_cons_self
      rw [List.flatMap_cons, List.append_assoc, List.singleton_append, keptIn_append_newline,
        keptIn_of_not_mem htidy.no_newline, htidy.keptOf_singleton hne,
        ih fun l hl => h l (List.mem_cons_of_mem _ hl)]
      rfl

theorem tidy_of_mem_keptLines {source : String} {line : List Char} (h : line ∈ keptLines source) :
    line ≠ [] ∧ Tidy line := by
  obtain ⟨hm, hne⟩ := List.mem_filter.mp h
  obtain ⟨raw, hraw, rfl⟩ := List.mem_map.mp hm
  exact ⟨by simpa using hne, tidy_clean (newline_not_mem_of_mem_splitLines hraw)⟩

/-- The source with its definitions behind everything else, but for the first line. -/
def definitionsLast (source : String) : String :=
  ofLines ((keptLines source).take 1 ++
    (otherLines (keptLines source).tail ++ definitionLines (keptLines source).tail))

theorem keptLines_definitionsLast (source : String) :
    keptLines (definitionsLast source) = (keptLines source).take 1 ++
      (otherLines (keptLines source).tail ++ definitionLines (keptLines source).tail) := by
  refine keptLines_ofLines fun line hline => ?_
  have hkept : line ∈ keptLines source := by
    rcases List.mem_append.mp hline with h | h
    · exact List.mem_of_mem_take h
    · rcases List.mem_append.mp h with h | h
      · exact List.mem_of_mem_tail (List.mem_filter.mp h).1
      · exact List.mem_of_mem_tail (List.mem_filter.mp h).1
  exact tidy_of_mem_keptLines hkept

theorem interleaved_definitionsLast (source : String) :
    Interleaved source (definitionsLast source) := by
  have hdefs : ∀ lines, definitionLines (otherLines lines ++ definitionLines lines) =
      definitionLines lines := by
    intro lines
    simp [definitionLines, otherLines, List.filter_filter]
  have hothers : ∀ lines, otherLines (otherLines lines ++ definitionLines lines) =
      otherLines lines := by
    intro lines
    simp [definitionLines, otherLines, List.filter_filter]
  have hkept := keptLines_definitionsLast source
  cases hk : keptLines source with
  | nil =>
      rw [hk] at hkept
      constructor <;> rw [hk, hkept] <;> rfl
  | cons first rest =>
      rw [hk] at hkept
      constructor <;> rw [hk, hkept]
      · rfl
      · exact (hdefs rest).symm
      · exact (hothers rest).symm

/-- Of two sources with the same first line and behind it the same definitions and the same other
lines both compile if one does, to stories of the same content.  In particular a definition can be
taken out of its place and the cells stay what they were, and the definitions may stand behind all
lines that speak of the items. -/
theorem compile_of_interleaving :
    (∀ a b : String, Interleaved a b → ∀ ta tb,
      ((∃ x, (compile ta a).result = .ok x) ↔ ∃ y, (compile tb b).result = .ok y) ∧
        ∀ x y, (compile ta a).result = .ok x → (compile tb b).result = .ok y →
          x.sameContent y = true) ∧
    (∀ (a b : String) (front behind : List (List Char)) (line : List Char), front ≠ [] →
      isDefinition line = true → keptLines a = front ++ line :: behind →
      keptLines b = front ++ behind → ∀ ta tb x, (compile ta a).result = .ok x →
        ∃ y, (compile tb b).result = .ok y ∧ y.title = x.title ∧ y.cells = x.cells) ∧
    ∀ (a : String) (ta tb : Timestamp) (x : Story), (compile ta a).result = .ok x →
      ∃ y, (compile tb (definitionsLast a)).result = .ok y ∧ x.sameContent y = true := by
  refine ⟨fun a b h ta tb => ⟨⟨?_, ?_⟩, ?_⟩, ?_, ?_⟩
  · rintro ⟨x, hx⟩
    obtain ⟨y, hy, -⟩ := h.exists_result hx tb
    exact ⟨y, hy⟩
  · rintro ⟨y, hy⟩
    have hback : Interleaved b a := ⟨h.first.symm, h.definitions.symm, h.others.symm⟩
    obtain ⟨x, hx, -⟩ := hback.exists_result hy ta
    exact ⟨x, hx⟩
  · intro x y hx hy
    obtain ⟨y', hy', hsame⟩ := h.exists_result hx tb
    obtain rfl := Except.ok.inj (hy.symm.trans hy')
    exact hsame
  · intro a b front behind line hfront hd ha hb ta tb x hx
    exact exists_result_without hd hfront ha hb hx tb
  · intro a ta tb x hx
    exact (interleaved_definitionsLast a).exists_result hx tb

/-- Definitions within a cell, one of them behind a guard. -/
def scatteredSource : String :=
  "Inn
:Bar
?key Go in
?cup %key A key
&key Take it
%cup A cup"

/-- The same definitions in front of everything else. -/
def gatheredSource : String :=
  "Inn
?cup %key A key
%cup A cup
:Bar
?key Go in
&key Take it"

/-- The first of the definitions taken out. -/
def sparserSource : String :=
  "Inn
:Bar
?key Go in
&key Take it
%cup A cup"

theorem compile_of_interleaving_scattered :
    Interleaved scatteredSource gatheredSource ∧
      ∃ x y z w, (compile .epoch scatteredSource).result = .ok x ∧
        (compile .epoch gatheredSource).result = .ok y ∧ x.sameContent y = true ∧
        (compile .epoch (definitionsLast scatteredSource)).result = .ok z ∧
        x.sameContent z = true ∧
        (compile .epoch sparserSource).result = .ok w ∧ w.title = x.title ∧ w.cells = x.cells := by
  have hscattered : keptLines scatteredSource =
      ["Inn", ":Bar", "?key Go in", "?cup %key A key", "&key Take it", "%cup A cup"].map
        String.toList := by decide +kernel
  have hgathered : keptLines gatheredSource =
      ["Inn", "?cup %key A key", "%cup A cup", ":Bar", "?key Go in", "&key Take it"].map
        String.toList := by decide +kernel
  have hsparser : keptLines sparserSource =
      ["Inn", ":Bar", "?key Go in", "&key Take it", "%cup A cup"].map String.toList := by
    decide +kernel
  have hinterleaved : Interleaved scatteredSource gatheredSource := by
    constructor <;> rw [hscattered, hgathered] <;> decide +kernel
  have hok : (compile .epoch scatteredSource).result.toOption.isSome = true := by decide +kernel
  obtain ⟨x, hx⟩ := exists_eq_ok_of_isSome hok
  obtain ⟨hwoven, htaken, hlast⟩ := compile_of_interleaving
  obtain ⟨hiff, hsame⟩ := hwoven _ _ hinterleaved .epoch .epoch
  obtain ⟨y, hy⟩ := hiff.mp ⟨x, hx⟩
  obtain ⟨z, hz, hxz⟩ := hlast scatteredSource .epoch .epoch x hx
  obtain ⟨w, hw, htitle, hcells⟩ := htaken scatteredSource sparserSource
    (["Inn", ":Bar", "?key Go in"].map String.toList)
    (["&key Take it", "%cup A cup"].map String.toList) "?cup %key A key".toList
    (List.cons_ne_nil _ _) (by decide +kernel) hscattered hsparser .epoch .epoch x hx
  exact ⟨hinterleaved, x, y, z, w, hx, hy, hsame x y hx hy, hz, hxz, hw, htitle, hcells⟩

end Gamebook.Source
