/-
# Lines as they are written

The grammar of a line, from the side of one who writes it: directives that may stand in
front of others in any number and order, then a gift or a loss if there is one, then the
text.  A `Script` is what there is to write; `Script.written` are its words with single
spaces between them, and `Script.line` is what it is meant to say.

Words are split at the spaces that joined them, the text with spaces of its own
(`words_unwords_concat`), and nothing of a written line is cut or trimmed
(`Script.tidy_written`).  The word loop takes the directives in front and stops at the
gift, the loss, or the first word of the text, which then is no directive
(`Script.classify_written`).

Main statement: `script_read_back`.
-/
import Gamebook.Proofs.Source.Concatenation
import Gamebook.Proofs.Source.Placement

namespace Gamebook.Source

/-! ## Scripts -/

/-- A text that can stand behind a glyph. -/
structure Name where
  text : String
  isName : IsName text.toList

/-- The glyphs that may stand in front of others. -/
inductive LeadGlyph where
  | require
  | forbid
  | link
deriving DecidableEq

/-- The glyphs behind which the text begins, whatever it is. -/
inductive LastGlyph where
  | give
  | take
deriving DecidableEq

def LeadGlyph.char : LeadGlyph → Char
  | require => '?'
  | forbid => '!'
  | link => '>'

def LeadGlyph.glyph : LeadGlyph → Glyph
  | require => .require
  | forbid => .forbid
  | link => .link

def LastGlyph.char : LastGlyph → Char
  | give => '&'
  | take => '@'

def LastGlyph.glyph : LastGlyph → Glyph
  | give => .give
  | take => .take

/-- A line to be written.  Its text may begin with what looks like a directive only behind a gift
or a loss; the empty text does not. -/
structure Script where
  leads : List (LeadGlyph × Name)
  last : Option (LastGlyph × Name)
  text : String
  tidy : Tidy text.toList
  shielded : last = none → beginsWithDirective text.toList = false

namespace Script

def leadWords (s : Script) : List (List Char) :=
  s.leads.map fun d => d.1.char :: d.2.text.toList

def lastWords (s : Script) : List (List Char) :=
  s.last.toList.map fun d => d.1.char :: d.2.text.toList

/-- The directives and the text, if there is one, with single spaces between them. -/
def written (s : Script) : List Char :=
  unwords (s.leadWords ++ s.lastWords ++ if s.text = "" then [] else [s.text.toList])

/-- The names behind one of the glyphs in front, in the order in which they are written. -/
def namesOf (g : LeadGlyph) (leads : List (LeadGlyph × Name)) : List String :=
  (leads.filter fun d => d.1 = g).map fun d => d.2.text

/-- The name behind the gift or the loss, whichever is asked for. -/
def lastName? (s : Script) (g : LastGlyph) : Option String :=
  (s.last.filter fun d => d.1 = g).map fun d => d.2.text

/-- What the script says. -/
def line (s : Script) : Line where
  require := namesOf .require s.leads
  forbid := namesOf .forbid s.leads
  give := s.lastName? .give
  take := s.lastName? .take
  linksTo := (namesOf .link s.leads).getLast?
  text := s.text

end Script

/-! ## Words of a script -/

/-- What stands in a directive is neither a space nor anything that is cut or trimmed. -/
structure IsSolid (cs : List Char) : Prop where
  no_comment : '#' ∉ cs
  no_margin : ∀ c ∈ cs, isMargin c = false

theorem IsSolid.space_not_mem {cs : List Char} (h : IsSolid cs) : ' ' ∉ cs :=
  fun hmem => absurd (h.no_margin _ hmem) (by decide)

theorem IsSolid.tidy {cs : List Char} (h : IsSolid cs) : Tidy cs where
  no_comment := h.no_comment
  no_newline := fun hmem => absurd (h.no_margin _ hmem) (by decide)
  trimmed := ⟨fun c hc => h.no_margin c (List.mem_of_mem_head? hc),
    fun c hc => h.no_margin c (List.mem_of_getLast? hc)⟩

theorem not_isMargin_of_isNameChar {c : Char} (h : isNameChar c = true) : isMargin c = false := by
  rw [Bool.eq_false_iff]
  intro hmargin
  simp only [isMargin, Bool.or_eq_true, beq_iff_eq] at hmargin
  rcases hmargin with ((((((rfl | rfl) | rfl) | rfl) | rfl) | rfl) | rfl) | rfl <;>
    exact absurd h (by decide)

theorem isSolid_directive {glyph : Char} (hglyph : IsSolid [glyph]) (name : Name) :
    IsSolid (glyph :: name.text.toList) where
  no_comment := by
    have hname : '#' ∉ name.text.toList := fun hmem => absurd (name.isName.2 _ hmem) (by decide)
    simpa [hname] using hglyph.no_comment
  no_margin := by
    intro c hc
    rcases List.mem_cons.mp hc with rfl | hc
    · exact hglyph.no_margin c List.mem_cons_self
    · exact not_isMargin_of_isNameChar (name.isName.2 c hc)

theorem ofWord?_directive {c : Char} {glyph : Glyph} (h : Glyph.ofChar? c = some glyph)
    (name : Name) : Directive.ofWord? (c :: name.text.toList) = some ⟨glyph, name.text⟩ :=
  Directive.ofWord?_eq_some_iff.mpr
    ⟨c, name.text.toList, rfl, h, name.isName, String.ofList_toList.symm⟩

/-- Leading words are read up to the first word that is none. -/
theorem classify_of_words {line : List Char} {leads rest : List (List Char)}
    (hwords : words line = leads ++ rest) (hleads : ∀ word ∈ leads, isLeading word = true)
    (hrest : ∀ word ∈ rest.head?, isLeading word = false) :
    Statement.classify line = .ofRemainder (lineOfLeading leads) rest := by
  rw [Statement.classify, hwords, List.takeWhile_append_of_pos hleads,
    List.dropWhile_append_of_pos hleads]
  cases rest with
  | nil => rw [List.takeWhile_nil, List.dropWhile_nil, List.append_nil]
  | cons word rest =>
      have hstop : ¬isLeading word = true := by simp [hrest word rfl]
      rw [List.takeWhile_cons_of_neg hstop, List.dropWhile_cons_of_neg hstop, List.append_nil]

namespace LeadGlyph

theorem ofChar?_char (g : LeadGlyph) : Glyph.ofChar? g.char = some g.glyph := by
  cases g <;> rfl

theorem isSolid_char (g : LeadGlyph) : IsSolid [g.char] :=
  ⟨by cases g <;> decide, List.forall_mem_singleton.mpr (by cases g <;> decide)⟩

theorem glyph_inj {g g' : LeadGlyph} : g.glyph = g'.glyph ↔ g = g' := by
  cases g <;> cases g' <;> decide

end LeadGlyph

namespace LastGlyph

theorem ofChar?_char (g : LastGlyph) : Glyph.ofChar? g.char = some g.glyph := by
  cases g <;> rfl

theorem isSolid_char (g : LastGlyph) : IsSolid [g.char] :=
  ⟨by cases g <;> decide, List.forall_mem_singleton.mpr (by cases g <;> decide)⟩

end LastGlyph

namespace Script

/-- The words of the text; the empty text has none. -/
def textWords (s : Script) : List (List Char) :=
  if s.text = "" then [] else words s.text.toList

variable (s : Script)

theorem solid_of_mem {word : List Char} (h : word ∈ s.leadWords ++ s.lastWords) :
    word ≠ [] ∧ IsSolid word := by
  rcases List.mem_append.mp h with h | h
  · obtain ⟨⟨glyph, name⟩, -, rfl⟩ := List.mem_map.mp h
    exact ⟨List.cons_ne_nil _ _, isSolid_directive glyph.isSolid_char name⟩
  · obtain ⟨⟨glyph, name⟩, -, rfl⟩ := List.mem_map.mp h
    exact ⟨List.cons_ne_nil _ _, isSolid_directive glyph.isSolid_char name⟩

theorem tidy_written : Tidy s.written := by
  refine tidy_unwords fun word hword => ?_
  rcases List.mem_append.mp hword with hword | hword
  · exact ⟨(s.solid_of_mem hword).1, (s.solid_of_mem hword).2.tidy⟩
  · split at hword
    next => exact absurd hword List.not_mem_nil
    next hne =>
      obtain rfl := List.mem_singleton.mp hword
      exact ⟨by simpa using hne, s.tidy⟩

/-- A written line is split into the words that it was joined from, and the text into its own. -/
theorem words_written (h : s.written ≠ []) :
    words s.written = s.leadWords ++ s.lastWords ++ s.textWords := by
  have hspaces : ∀ word ∈ s.leadWords ++ s.lastWords, ' ' ∉ word :=
    fun word hword => (s.solid_of_mem hword).2.space_not_mem
  unfold written at h ⊢
  unfold textWords
  by_cases htext : s.text = ""
  · rw [if_pos htext, List.append_nil] at h
    rw [if_pos htext, if_pos htext, List.append_nil]
    refine words_unwords (fun hnil => h ?_) hspaces
    rw [hnil, unwords]
  · rw [if_neg htext, if_neg htext]
    exact words_unwords_concat hspaces s.text.toList

theorem textOf_textWords : textOf s.textWords = s.text := by
  unfold textWords
  by_cases htext : s.text = ""
  · rw [if_pos htext, htext]
    rfl
  · rw [if_neg htext, textOf_words s.tidy.trimmed, String.ofList_toList]

/-! ## Reading a script -/

theorem namesBehind_leadWords (g : LeadGlyph) :
    namesBehind g.glyph s.leadWords = namesOf g s.leads := by
  unfold leadWords
  induction s.leads with
  | nil => rfl
  | cons d leads ih =>
      rw [List.map_cons, namesBehind_cons (ofWord?_directive d.1.ofChar?_char d.2), ih]
      by_cases h : d.1 = g <;> simp [namesOf, LeadGlyph.glyph_inj, h]

theorem lineOfLeading_leadWords :
    lineOfLeading s.leadWords =
      ⟨namesOf .require s.leads, namesOf .forbid s.leads, none, none,
        (namesOf .link s.leads).getLast?, ""⟩ := by
  have hrequire := s.namesBehind_leadWords .require
  have hforbid := s.namesBehind_leadWords .forbid
  have hlink := s.namesBehind_leadWords .link
  simp only [LeadGlyph.glyph] at hrequire hforbid hlink
  rw [lineOfLeading, hrequire, hforbid, hlink]
  rfl

theorem isLeading_of_mem_leadWords {word : List Char} (h : word ∈ s.leadWords) :
    isLeading word = true := by
  obtain ⟨⟨glyph, name⟩, -, rfl⟩ := List.mem_map.mp h
  rw [isLeading_of_ofWord? (ofWord?_directive glyph.ofChar?_char name)]
  cases glyph <;> rfl

/-- Behind the directives in front there is nothing, or a gift or a loss, or the first word of the
text, which is no directive. -/
theorem rest_cases :
    (s.last = none ∧ s.text = "" ∧ s.lastWords ++ s.textWords = []) ∨
    (∃ word rest, s.last = none ∧ s.lastWords ++ s.textWords = word :: rest ∧
      Directive.ofWord? word = none ∧ textOf (word :: rest) = s.text) ∨
    ∃ glyph name, s.last = some (glyph, name) ∧
      s.lastWords ++ s.textWords = (glyph.char :: name.text.toList) :: s.textWords := by
  unfold lastWords
  cases hlast : s.last with
  | some d => exact Or.inr (Or.inr ⟨d.1, d.2, rfl, rfl⟩)
  | none =>
      by_cases htext : s.text = ""
      · exact Or.inl ⟨rfl, htext, by simp [textWords, htext]⟩
      · obtain ⟨word, rest, hwords⟩ := List.exists_cons_of_ne_nil (words_ne_nil s.text.toList)
        have htextWords : s.textWords = word :: rest := by rw [textWords, if_neg htext, hwords]
        have hshielded := s.shielded hlast
        rw [beginsWithDirective, hwords] at hshielded
        exact Or.inr (Or.inl ⟨word, rest, rfl, htextWords, by simpa using hshielded,
          htextWords ▸ s.textOf_textWords⟩)

/-- What is written is read as what the script says. -/
theorem classify_written (h : s.written ≠ []) : Statement.classify s.written = .content s.line := by
  have hleads : ∀ word ∈ s.leadWords, isLeading word = true :=
    fun word => s.isLeading_of_mem_leadWords
  have hwords := s.words_written h
  rw [List.append_assoc] at hwords
  rcases s.rest_cases with ⟨hlast, htext, hrest⟩ | ⟨word, rest, hlast, hrest, hword, htext⟩ |
    ⟨glyph, name, hlast, hrest⟩
  · rw [hrest] at hwords
    rw [classify_of_words hwords hleads (by simp), lineOfLeading_leadWords,
      Statement.ofRemainder, line, lastName?, lastName?, hlast, htext]
    rfl
  · rw [hrest] at hwords
    rw [classify_of_words hwords hleads (by simp [isLeading, hword]), lineOfLeading_leadWords,
      line, lastName?, lastName?, hlast]
    simp only [Statement.ofRemainder, hword, htext]
    rfl
  · have hdirective := ofWord?_directive glyph.ofChar?_char name
    have hstop : isLeading (glyph.char :: name.text.toList) = false := by
      rw [isLeading_of_ofWord? hdirective]
      cases glyph <;> rfl
    rw [hrest] at hwords
    rw [classify_of_words hwords hleads (by simp [hstop]), lineOfLeading_leadWords,
      line, lastName?, lastName?, hlast]
    cases glyph with
    | give =>
        simp only [Statement.ofRemainder, hdirective, textOf_textWords]
        rfl
    | take =>
        simp only [Statement.ofRemainder, hdirective, textOf_textWords]
        rfl

end Script

/-! ## Content at the end of a source -/

/-- Content at the end goes to the cell opened last. -/
theorem linesAhead_concat_content (ss : List Statement) (line : Line) :
    linesAhead (ss ++ [.content line]) =
      linesAhead ss ++ if cellsOf ss = [] then [line] else [] := by
  induction ss with
  | nil => rfl
  | cons s ss ih =>
      cases s with
      | openCell name label => rfl
      | defineItem name description => exact ih
      | content other => exact congrArg (other :: ·) ih
      | refused word => exact ih

theorem cellsOf_concat_content_eq_nil {ss : List Statement} (h : cellsOf ss = []) (line : Line) :
    cellsOf (ss ++ [.content line]) = [] := by
  induction ss with
  | nil => rfl
  | cons s ss ih =>
      cases s with
      | openCell name label => exact absurd h (List.cons_ne_nil _ _)
      | defineItem name description => exact ih h
      | content other => exact ih h
      | refused word => exact ih h

theorem cellsOf_concat_content {ss : List Statement} (line : Line) {cell : Cell} :
    ∀ {front : List Cell}, cellsOf ss = front ++ [cell] →
      cellsOf (ss ++ [.content line]) = front ++ [{ cell with lines := cell.lines ++ [line] }] := by
  induction ss with
  | nil => exact fun h => absurd h.symm (List.concat_ne_nil _ _)
  | cons s ss ih =>
      intro front h
      cases s with
      | defineItem name description => exact ih h
      | content other => exact ih h
      | refused word => exact ih h
      | openCell name label =>
          rw [cellsOf] at h
          rw [List.cons_append, cellsOf, linesAhead_concat_content]
          cases front with
          | nil =>
              obtain ⟨rfl, hnone⟩ := List.cons.inj h
              rw [cellsOf_concat_content_eq_nil hnone, if_pos hnone]
              rfl
          | cons first front =>
              obtain ⟨rfl, hcells⟩ := List.cons.inj h
              rw [ih hcells, if_neg (hcells ▸ List.concat_ne_nil _ _), List.append_nil]
              rfl

namespace Script

variable (s : Script) (h : s.written ≠ [])
include h

theorem keptLines_written : keptLines (String.ofList s.written) = [s.written] := by
  show keptIn (String.ofList s.written).toList = [s.written]
  rw [String.toList_ofList, keptIn_of_not_mem s.tidy_written.no_newline,
    s.tidy_written.keptOf_singleton h]

/-- With the title settled and a cell open, a written line is read as a line of that cell. -/
theorem read_written {draft : Draft} {cell : Cell} (htitle : draft.titleSeen = true)
    (hcell : draft.current = some cell) (number : Nat) :
    draft.read number s.written =
      ([.lineAppended number cell.name],
        .ok { draft with current := some { cell with lines := cell.lines ++ [s.line] } }) := by
  have htakes : draft.Takes s.written (.content s.line) := by
    refine ⟨?_, Or.inl htitle, ?_⟩
    · rw [s.tidy_written.clean_eq]
      exact List.isEmpty_eq_false_iff.mpr h
    · rw [s.tidy_written.clean_eq]
      exact s.classify_written h
  rw [(Draft.Step.append htakes hcell).read_eq]
  simp [htitle]

/-- Behind a source that has opened a cell, a written line goes to the cell opened last. -/
theorem compile_written {compiledAt : Timestamp} {front : String} {story : Story} {cell : Cell}
    (hfront : (compile compiledAt front).result = .ok story)
    (hcell : (cellsOf (outline front).statements).getLast? = some cell) :
    (compile compiledAt (front ++ "\n" ++ String.ofList s.written)).result =
      .ok (story.insertCell { cell with lines := cell.lines ++ [s.line] }) := by
  obtain ⟨hrefused, items, hitems, rfl⟩ := compile_result_eq_ok_iff.mp hfront
  obtain ⟨earlier, hcells⟩ := List.getLast?_eq_some_iff.mp hcell
  have hkept : keptLines front ≠ [] := by
    intro hnil
    rw [outline, hnil, Outline.ofKept, cellsOf] at hcell
    exact absurd hcell.symm (Option.some_ne_none cell)
  have houtline : outline (front ++ "\n" ++ String.ofList s.written) =
      ⟨(outline front).title, (outline front).statements ++ [.content s.line]⟩ := by
    rw [outline, keptLines_append, s.keptLines_written h, Outline.ofKept_append hkept,
      List.map_singleton, s.classify_written h]
    rfl
  have hdefinitions : definitionsOf [.content s.line] = [] := rfl
  rw [compile_result_eq_ok_iff, houtline]
  refine ⟨fun word hword => ?_, items, ?_, ?_⟩
  · rcases List.mem_append.mp hword with hword | hword
    · exact hrefused word hword
    · exact absurd (List.mem_singleton.mp hword) (by simp)
  · rw [definitionsOf_append, hdefinitions, List.append_nil, hitems]
  · have hname : ({ cell with lines := cell.lines ++ [s.line] } : Cell).name = cell.name := rfl
    rw [cellsOf_concat_content s.line hcells, hcells, Story.insertCells_append,
      Story.insertCells_append]
    exact (Story.insertCell_insertCell _ hname).symm

end Script

/-- Every line of the grammar is read back as what it was written from: guards in their order with
those that repeat, the last of the links, the gift or the loss, and the text with its spaces.  With
the title settled and a cell open, the line is added to that cell and nothing else changes; so a
source with the line at its end compiles to the same story but for the cell opened last, which has
the line at its end. -/
theorem script_read_back (s : Script) (h : s.written ≠ []) :
    (∀ (draft : Draft) (cell : Cell) (number : Nat), draft.titleSeen = true →
      draft.current = some cell →
        draft.read number s.written =
          ([.lineAppended number cell.name],
            .ok { draft with current := some { cell with lines := cell.lines ++ [s.line] } })) ∧
    ∀ (compiledAt : Timestamp) (front : String) (story : Story) (cell : Cell),
      (compile compiledAt front).result = .ok story →
      (cellsOf (outline front).statements).getLast? = some cell →
        (compile compiledAt (front ++ "\n" ++ String.ofList s.written)).result =
          .ok (story.insertCell { cell with lines := cell.lines ++ [s.line] }) :=
  ⟨fun _ _ number htitle hcell => s.read_written h htitle hcell number,
    fun _ _ _ _ hfront hcell => s.compile_written h hfront hcell⟩

/-- A guard that repeats, two links, and a text behind a gift that looks like a link and has two
spaces in a row. -/
def fellScript : Script where
  leads :=
    [(.require, ⟨"key", by decide⟩), (.link, ⟨"Moor", by decide⟩),
      (.forbid, ⟨"rope", by decide⟩), (.require, ⟨"key", by decide⟩),
      (.link, ⟨"Hill-2", by decide⟩)]
  last := some (.give, ⟨"lamp", by decide⟩)
  text := ">Go  up"
  tidy := by decide
  shielded := nofun

def fellSource : String :=
  "A fell
%key A key
:Start The foot
Rain."

def fellFoot : Cell := ⟨"Start", some "The foot", [.ofText "Rain."]⟩

theorem script_read_back_fell :
    String.ofList fellScript.written = "?key >Moor !rope ?key >Hill-2 &lamp >Go  up" ∧
      fellScript.line =
        ⟨["key", "key"], ["rope"], some "lamp", none, some "Hill-2", ">Go  up"⟩ ∧
      Draft.read ⟨.empty "A fell" .epoch, some fellFoot, 0, true⟩ 5 fellScript.written =
        ([.lineAppended 5 "Start"],
          .ok ⟨.empty "A fell" .epoch,
            some { fellFoot with lines := fellFoot.lines ++ [fellScript.line] }, 0, true⟩) ∧
      ∃ story, (compile .epoch fellSource).result = .ok story ∧
        (compile .epoch (fellSource ++ "\n" ++ String.ofList fellScript.written)).result =
          .ok (story.insertCell
            { fellFoot with lines := fellFoot.lines ++ [fellScript.line] }) := by
  have hok : (compile .epoch fellSource).result.toOption.isSome = true := by decide +kernel
  obtain ⟨story, hr⟩ := exists_eq_ok_of_isSome hok
  have hcell : (cellsOf (outline fellSource).statements).getLast? = some fellFoot := by
    decide +kernel
  obtain ⟨hread, hcompile⟩ := script_read_back fellScript (by decide)
  exact ⟨by decide, by decide, hread _ fellFoot 5 rfl rfl, story, hr,
    hcompile .epoch fellSource story fellFoot hr hcell⟩

end Gamebook.Source
