/-
# Compiled stories are well shaped

Whatever a source holds, what the compiler makes of it has names of letters, digits,
`_` and `-`, texts that are tidy, labels only where there is something to say, and in
its cells no line that says nothing.  The story in the making has this shape, and so
has the open cell.

A statement has the shape of its line (`wellShaped_ofLine`): the words in front of the
text set names alone, and a line that is not blank sets something whichever way the
word loop ends.  So each line that is read keeps the shape (`Step.wellShaped`), and all
lines do (`Reached.wellShaped`).

Main statement: `wellShaped_of_compile`.
-/
import Gamebook.Proofs.Source.Fault
import Gamebook.Proofs.Source.Words

namespace Gamebook

open Source (IsName Tidy)

/-! ## The shape of a story -/

/-- The names of items and cells that a line speaks of. -/
def Line.names (line : Line) : List String :=
  line.require ++ line.forbid ++ line.give.toList ++ line.take.toList ++ line.linksTo.toList

/-- A line that says something, in names and a tidy text, and gives or takes but not both. -/
structure Line.WellShaped (line : Line) : Prop where
  names : ∀ name ∈ line.names, IsName name.toList
  text : Tidy line.text.toList
  one_change : line.give = none ∨ line.take = none
  not_blank : line ≠ .blank

structure Cell.WellShaped (cell : Cell) : Prop where
  name : IsName cell.name.toList
  label : ∀ label, cell.label = some label → label ≠ "" ∧ Tidy label.toList
  lines : ∀ line ∈ cell.lines, line.WellShaped

structure Item.WellShaped (item : Item) : Prop where
  name : IsName item.name.toList
  description : Tidy item.description.toList

structure Story.WellShaped (story : Story) : Prop where
  title : Tidy story.title.toList
  items : ∀ item ∈ story.items.items, item.WellShaped
  cells : ∀ id cell, story.cell? id = some cell → cell.WellShaped

/-! ## Storing and defining -/

theorem Story.WellShaped.insertCell {story : Story} (h : story.WellShaped) {cell : Cell}
    (hcell : cell.WellShaped) : (story.insertCell cell).WellShaped where
  title := h.title
  items := h.items
  cells := by
    intro id other hother
    rw [Story.cell?_insertCell] at hother
    split at hother
    next =>
      obtain rfl := Option.some.inj hother
      exact hcell
    next => exact h.cells id other hother

theorem Cell.WellShaped.append {cell : Cell} (h : cell.WellShaped) {line : Line}
    (hline : line.WellShaped) :
    ({ cell with lines := cell.lines ++ [line] } : Cell).WellShaped where
  name := h.name
  label := h.label
  lines := by
    intro other hother
    rcases List.mem_append.mp hother with hother | hother
    · exact h.lines other hother
    · obtain rfl := List.mem_singleton.mp hother
      exact hline

/-- The items after a definition are those before it, and one as it was defined. -/
theorem Registry.mem_of_define {r next : Registry} {name description : String} {item : Item}
    (h : r.define name description = .ok (item, next)) {other : Item}
    (hother : other ∈ next.items) :
    other ∈ r.items ∨ (other.name = name ∧ other.description = description) := by
  rcases Registry.define_cases r name description with
    ⟨found, -, hd⟩ | ⟨fresh, room, hd⟩ | ⟨-, -, hd⟩
  · obtain ⟨-, rfl⟩ := Prod.mk.inj (Except.ok.inj (h.symm.trans hd))
    obtain ⟨old, hold, rfl⟩ := List.mem_map.mp hother
    by_cases hname : old.name = name
    · rw [if_pos hname]
      exact Or.inr ⟨hname, rfl⟩
    · rw [if_neg hname]
      exact Or.inl hold
  · obtain ⟨-, rfl⟩ := Prod.mk.inj (Except.ok.inj (h.symm.trans hd))
    rcases List.mem_append.mp hother with hother | hother
    · exact Or.inl hother
    · obtain rfl := List.mem_singleton.mp hother
      exact Or.inr ⟨rfl, rfl⟩
  · exact nomatch h.symm.trans hd

theorem Story.WellShaped.define {story : Story} (h : story.WellShaped) {name description : String}
    {item : Item} {items : Registry} (hd : story.items.define name description = .ok (item, items))
    (hname : IsName name.toList) (hdescription : Tidy description.toList) :
    (story.withItems items).WellShaped where
  title := h.title
  items := by
    intro other hother
    rcases Registry.mem_of_define hd hother with hold | ⟨rfl, rfl⟩
    · exact h.items other hold
    · exact ⟨hname, hdescription⟩
  cells := h.cells

namespace Source

/-! ## One line -/

/-- What a statement brings into a story. -/
def Statement.WellShaped : Statement → Prop
  | .openCell name label => Cell.WellShaped ⟨name, label, []⟩
  | .defineItem name description => IsName name.toList ∧ Tidy description.toList
  | .content line => line.WellShaped
  | .refused _ => True

/-- The words in front have set names and nothing else so far. -/
structure Leading (line : Line) : Prop where
  names : ∀ name ∈ line.names, IsName name.toList
  no_give : line.give = none
  no_take : line.take = none
  no_text : line.text = ""

theorem leading_blank : Leading .blank := ⟨fun _ h => absurd h List.not_mem_nil, rfl, rfl, rfl⟩

theorem isName_of_ofWord? {word : List Char} {glyph : Glyph} {name : String}
    (h : Directive.ofWord? word = some ⟨glyph, name⟩) : IsName name.toList := by
  obtain ⟨c, cs, -, -, hname, rfl⟩ := Directive.ofWord?_eq_some_iff.mp h
  rw [String.toList_ofList]
  exact hname

theorem wellShaped_label {name : String} (hname : IsName name.toList) {text : String}
    (htext : Tidy text.toList) : Cell.WellShaped ⟨name, nonempty? text, []⟩ where
  name := hname
  label := by
    intro label hlabel
    have hlabel : nonempty? text = some label := hlabel
    rw [nonempty?] at hlabel
    split at hlabel
    next => exact nomatch hlabel
    next hne =>
      obtain rfl := Option.some.inj hlabel
      exact ⟨hne, htext⟩
  lines := fun _ h => absurd h List.not_mem_nil

section Leading

variable {line : Line} (h : Leading line)
include h

section Name

variable {name : String} (hname : IsName name.toList)
include hname

/-- One more name makes no difference to what the names are like. -/
theorem Leading.isName_of_mem {line' : Line}
    (hnames : ∀ other ∈ line'.names, other = name ∨ other ∈ line.names) :
    ∀ other ∈ line'.names, IsName other.toList := by
  intro other hother
  rcases hnames other hother with rfl | hold
  · exact hname
  · exact h.names other hold

theorem Leading.link : Leading { line with linksTo := some name } ∧
    ({ line with linksTo := some name } : Line) ≠ .blank := by
  constructor
  · exact ⟨h.isName_of_mem hname (by grind [Line.names]), h.no_give, h.no_take, h.no_text⟩
  · exact fun hblank => nomatch congrArg Line.linksTo hblank

theorem Leading.require : Leading { line with require := line.require ++ [name] } ∧
    ({ line with require := line.require ++ [name] } : Line) ≠ .blank := by
  constructor
  · exact ⟨h.isName_of_mem hname (by grind [Line.names]), h.no_give, h.no_take, h.no_text⟩
  · exact fun hblank => List.concat_ne_nil _ _ (congrArg Line.require hblank)

theorem Leading.forbid : Leading { line with forbid := line.forbid ++ [name] } ∧
    ({ line with forbid := line.forbid ++ [name] } : Line) ≠ .blank := by
  constructor
  · exact ⟨h.isName_of_mem hname (by grind [Line.names]), h.no_give, h.no_take, h.no_text⟩
  · exact fun hblank => List.concat_ne_nil _ _ (congrArg Line.forbid hblank)

theorem Leading.give {text : String} (htext : Tidy text.toList) :
    ({ line with give := some name, text } : Line).WellShaped where
  names := h.isName_of_mem hname (by grind [Line.names])
  text := htext
  one_change := Or.inr h.no_take
  not_blank := fun hblank => nomatch congrArg Line.give hblank

theorem Leading.take {text : String} (htext : Tidy text.toList) :
    ({ line with take := some name, text } : Line).WellShaped where
  names := h.isName_of_mem hname (by grind [Line.names])
  text := htext
  one_change := Or.inl h.no_give
  not_blank := fun hblank => nomatch congrArg Line.take hblank

end Name

theorem Leading.without_text : ({ line with text := "" } : Line) = line := by
  rw [← h.no_text]

/-- A text makes a line of what was set, unless nothing was and the text is empty. -/
theorem Leading.content {text : String} (htext : Tidy text.toList)
    (hsome : line ≠ .blank ∨ text ≠ "") : ({ line with text } : Line).WellShaped where
  names := h.names
  text := htext
  one_change := Or.inl h.no_give
  not_blank := by
    intro hblank
    have hempty : text = "" := congrArg Line.text hblank
    rcases hsome with hline | htext
    · rw [hempty, h.without_text] at hblank
      exact hline hblank
    · exact htext hempty

end Leading

/-- The word loop: with a line that leading words have set, and words that make tidy texts from
wherever the text begins.  One of the two is there from the start and stays. -/
theorem wellShaped_ofWordsFrom (ws : List (List Char)) :
    ∀ {line : Line}, Leading line → (∀ rest, rest <:+ ws → Tidy (textOf rest).toList) →
      line ≠ .blank ∨ textOf ws ≠ "" → (Statement.ofWordsFrom line ws).WellShaped := by
  induction ws with
  | nil =>
      intro line h htidy hsome
      have hline : line ≠ .blank := hsome.resolve_right fun hne => hne rfl
      have hcontent : ({ line with text := "" } : Line).WellShaped :=
        h.content tidy_nil (Or.inl hline)
      rw [h.without_text] at hcontent
      exact hcontent
  | cons word rest ih =>
      intro line h htidy hsome
      have hrest := htidy rest (List.suffix_cons _ _)
      have hbehind : ∀ rest', rest' <:+ rest → Tidy (textOf rest').toList := fun rest' hsuffix =>
        htidy rest' (hsuffix.trans (List.suffix_cons _ _))
      rw [Statement.ofWordsFrom]
      cases hd : Directive.ofWord? word with
      | none => exact h.content (htidy _ (List.suffix_refl _)) hsome
      | some d =>
          obtain ⟨glyph, name⟩ := d
          have hname := isName_of_ofWord? hd
          cases glyph with
          | cell => exact wellShaped_label hname hrest
          | define => exact ⟨hname, hrest⟩
          | link => exact ih (h.link hname).1 hbehind (Or.inl (h.link hname).2)
          | require => exact ih (h.require hname).1 hbehind (Or.inl (h.require hname).2)
          | forbid => exact ih (h.forbid hname).1 hbehind (Or.inl (h.forbid hname).2)
          | give => exact h.give hname hrest
          | take => exact h.take hname hrest
          | reserved => trivial

/-- A tidy line that is not blank says something of the right shape. -/
theorem wellShaped_ofLine {line : List Char} (h : Tidy line) (hne : line ≠ []) :
    (Statement.ofLine line).WellShaped := by
  refine wellShaped_ofWordsFrom (words line) leading_blank (fun rest => h.textOf) (Or.inr ?_)
  rw [textOf_words h.trimmed]
  intro hempty
  exact hne (by simpa using congrArg String.toList hempty)

/-! ## All lines -/

namespace Draft

/-- The story so far has the shape, and so has the open cell. -/
structure WellShaped (draft : Draft) : Prop where
  story : draft.story.WellShaped
  current : ∀ cell, draft.current = some cell → cell.WellShaped

theorem wellShaped_start (compiledAt : Timestamp) : (Draft.start compiledAt).WellShaped where
  story := ⟨tidy_nil, fun _ h => absurd h List.not_mem_nil, fun _ _ h => nomatch h⟩
  current := fun _ h => nomatch h

theorem Takes.wellShaped {draft : Draft} {raw : List Char} {s : Statement}
    (h : draft.Takes raw s) (hraw : '\n' ∉ raw) : s.WellShaped := by
  rw [← h.reads, ← Statement.ofLine_eq_classify]
  exact wellShaped_ofLine (tidy_clean hraw) (by simpa using h.kept)

/-- The step: a line keeps the shape, whatever it is. -/
theorem Step.wellShaped {draft next : Draft} {number : Nat} {raw : List Char} {events : List Event}
    (h : Step draft number raw events (.ok next)) (hraw : '\n' ∉ raw) (hd : draft.WellShaped) :
    next.WellShaped := by
  cases h with
  | blank => exact hd
  | title =>
      have htitle : Tidy (String.ofList (clean raw)).toList := by
        rw [String.toList_ofList]
        exact tidy_clean hraw
      exact ⟨⟨htitle, hd.story.items, hd.story.cells⟩, hd.current⟩
  | openFirst ht =>
      refine ⟨hd.story, fun cell hcell => ?_⟩
      obtain rfl := Option.some.inj hcell
      exact ht.wellShaped hraw
  | openNext ht hc =>
      refine ⟨hd.story.insertCell (hd.current _ hc), fun cell hcell => ?_⟩
      obtain rfl := Option.some.inj hcell
      exact ht.wellShaped hraw
  | define ht hdefine =>
      obtain ⟨hname, hdescription⟩ := ht.wellShaped hraw
      exact ⟨hd.story.define hdefine hname hdescription, hd.current⟩
  | append ht hc =>
      refine ⟨hd.story, fun cell hcell => ?_⟩
      obtain rfl := Option.some.inj hcell
      exact (hd.current _ hc).append (ht.wellShaped hraw)
  | drop => exact ⟨hd.story, fun _ hcell => nomatch hcell⟩

/-- The run: all lines keep the shape. -/
theorem Reached.wellShaped {compiledAt : Timestamp} {earlier : List (List Char)} {draft : Draft}
    {events : List Event} (h : Reached compiledAt earlier draft events) :
    (∀ raw ∈ earlier, '\n' ∉ raw) → draft.WellShaped := by
  induction h with
  | start => exact fun _ => wellShaped_start compiledAt
  | read _ hstep ih =>
      intro hlines
      exact hstep.wellShaped (hlines _ (List.mem_append_right _ List.mem_cons_self))
        (ih fun raw hraw => hlines raw (List.mem_append_left _ hraw))

theorem WellShaped.close {draft : Draft} (h : draft.WellShaped) :
    draft.close.2.story.WellShaped := by
  rw [Draft.close]
  cases hc : draft.current with
  | none => exact h.story
  | some cell => exact h.story.insertCell (h.current cell hc)

/-- Lines that were split off a text have no line end in them, so the story they make is well
shaped. -/
theorem Reached.wellShaped_close {compiledAt : Timestamp} {cs : List Char} {draft : Draft}
    {events : List Event} (h : Reached compiledAt (splitLines cs) draft events) :
    draft.close.2.story.WellShaped :=
  (h.wellShaped fun _ => newline_not_mem_of_mem_splitLines).close

end Draft

/-! ## Compiling -/

/-- A story that was compiled is well shaped: its names are names; its title, its labels,
descriptions and texts are tidy; no label is empty; and of its lines none gives and takes, and none
says nothing. -/
theorem wellShaped_of_compile {compiledAt : Timestamp} {source : String} {story : Story}
    (h : (compile compiledAt source).result = .ok story) : story.WellShaped := by
  obtain ⟨draft, events, hr, rfl, -⟩ := exists_reached_of_result h
  exact hr.wellShaped_close

/-- Blanks of all kinds at the ends and in the midst, a directive behind an empty word, a glyph
without a name, and lines that come to nothing but a name. -/
def ruggedSource : String :=
  "\u00a0 A  walk\t# for two
%lamp  A  lamp\u0085
:Start # the gate
?lamp  >Cave
>Cave   Go\tin
&lamp
: no name
:Cave \tThe  cave"

/-- What its gate comes to. -/
def ruggedStart : Cell :=
  ⟨"Start", none,
    [⟨["lamp"], [], none, none, none, ">Cave"⟩, ⟨[], [], none, none, some "Cave", "Go\tin"⟩,
      ⟨[], [], some "lamp", none, none, ""⟩, .ofText ": no name"]⟩

theorem wellShaped_of_compile_rugged :
    ∃ story, (compile .epoch ruggedSource).result = .ok story ∧ story.WellShaped ∧
      story.title = "A  walk" ∧ story.items.items = [⟨"lamp", 0, "A  lamp"⟩] ∧
      story.cell? .start = some ruggedStart ∧
      story.cellNamed? "Cave" = some ⟨"Cave", some "The  cave", []⟩ := by
  have hread : (compile .epoch ruggedSource).result.toOption.map (fun story =>
        (story.title, story.items.items, story.cell? .start, story.cellNamed? "Cave")) =
      some ("A  walk", [⟨"lamp", 0, "A  lamp"⟩], some ruggedStart,
        some ⟨"Cave", some "The  cave", []⟩) := by decide +kernel
  obtain ⟨story, hs, hparts⟩ := Option.map_eq_some_iff.mp hread
  have hr := toOption_eq_some_iff.mp hs
  simp only [Prod.mk.injEq] at hparts
  exact ⟨story, hr, wellShaped_of_compile hr, hparts⟩

end Source

end Gamebook
