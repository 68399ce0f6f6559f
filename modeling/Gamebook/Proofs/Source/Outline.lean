/-
# What a source says, read as a whole

The compiler goes through a source once, with an open cell in hand and a count of
dropped lines.  Here the same source is read without any of that:

* every line is classified by itself, from the directive words in front of it
  and the first word behind them (`Statement.classify`);
* the first line is set apart if it is a title (`outline`);
* a cell is what one opening says, with the content lines up to the next
  opening (`cellsOf`), wherever definitions stand between them;
* the items are those that the definitions make, in their order
  (`Registry.itemsOf`), wherever they stand in the source.

Main statement: `Statement.ofLine_eq_classify`, the word loop of the compiler
finds what the classification says.  That compiling a source yields what its
outline says is proved in `Gamebook.Proofs.Source.Compile`.
-/
import Gamebook.Proofs.Registry.Definitions
import Gamebook.Source.Compile

namespace Gamebook.Source

open Registry (definedNames itemsOf)

/-! ## One line

The words of a line fall into a leading run, which only adds guards and a link,
and a remainder, whose first word decides what the line is. -/

/-- A directive that may stand in front of others: `?`, `!` or `>` with a name. -/
def isLeading (word : List Char) : Bool :=
  match Directive.ofWord? word with
  | some ⟨.require, _⟩ => true
  | some ⟨.forbid, _⟩ => true
  | some ⟨.link, _⟩ => true
  | _ => false

/-- The names that stand behind one glyph, in order. -/
def namesBehind (glyph : Glyph) (ws : List (List Char)) : List String :=
  (ws.filterMap Directive.ofWord?).filterMap fun d =>
    if d.glyph = glyph then some d.name else none

/-- The line that leading words alone make: all guards count, and of several links the last. -/
def lineOfLeading (leading : List (List Char)) : Line :=
  { Line.blank with
    require := namesBehind .require leading
    forbid := namesBehind .forbid leading
    linksTo := (namesBehind .link leading).getLast? }

/-- What the words behind a leading run say, where `line` is what the run makes. -/
def Statement.ofRemainder (line : Line) : List (List Char) → Statement
  | [] => .content line
  | word :: rest =>
      match Directive.ofWord? word with
      | none => .content { line with text := textOf (word :: rest) }
      | some ⟨.cell, name⟩ => .openCell name (nonempty? (textOf rest))
      | some ⟨.define, name⟩ => .defineItem name (textOf rest)
      | some ⟨.give, name⟩ => .content { line with give := some name, text := textOf rest }
      | some ⟨.take, name⟩ => .content { line with take := some name, text := textOf rest }
      | some _ => .refused (String.ofList word)

def Statement.classify (line : List Char) : Statement :=
  .ofRemainder (lineOfLeading ((words line).takeWhile isLeading))
    ((words line).dropWhile isLeading)

/-! ## The whole source -/

/-- Lines without comments and margins, blank ones left out. -/
def keptOf (raws : List (List Char)) : List (List Char) :=
  (raws.map clean).filter fun line => !line.isEmpty

def keptLines (source : String) : List (List Char) := keptOf (splitLines source.toList)

theorem keptOf_cons_of_blank {raw : List Char} (h : (clean raw).isEmpty = true)
    (raws : List (List Char)) : keptOf (raw :: raws) = keptOf raws := by
  simp [keptOf, h]

theorem keptOf_cons {raw : List Char} (h : (clean raw).isEmpty = false)
    (raws : List (List Char)) : keptOf (raw :: raws) = clean raw :: keptOf raws := by
  simp [keptOf, h]

theorem keptOf_append (raws raws' : List (List Char)) :
    keptOf (raws ++ raws') = keptOf raws ++ keptOf raws' := by
  simp [keptOf]

/-- What a source says: a title, and a statement for every other line. -/
structure Outline where
  title : String
  statements : List Statement
deriving DecidableEq

/-- The first line is the title if it begins with no directive. -/
def Outline.ofKept : List (List Char) → Outline
  | [] => ⟨"", []⟩
  | first :: rest =>
      if beginsWithDirective first then ⟨"", (first :: rest).map Statement.classify⟩
      else ⟨String.ofList first, rest.map Statement.classify⟩

def outline (source : String) : Outline := .ofKept (keptLines source)

/-- Behind the first line every line is a statement. -/
theorem Outline.ofKept_append {lines : List (List Char)} (h : lines ≠ [])
    (lines' : List (List Char)) :
    ofKept (lines ++ lines') =
      ⟨(ofKept lines).title, (ofKept lines).statements ++ lines'.map Statement.classify⟩ := by
  obtain ⟨first, rest, rfl⟩ := List.exists_cons_of_ne_nil h
  cases hb : beginsWithDirective first <;> simp [ofKept, hb]

/-! ## Cells -/

def Statement.opensCell : Statement → Bool
  | .openCell .. => true
  | _ => false

/-- The line that a statement adds to the cell it stands in. -/
def Statement.line? : Statement → Option Line
  | .content line => some line
  | _ => none

/-- The content lines in front of the next opening. -/
def linesAhead (ss : List Statement) : List Line :=
  (ss.takeWhile fun s => !s.opensCell).filterMap Statement.line?

/-- The cells that statements open, each with the content lines up to the next opening. -/
def cellsOf : List Statement → List Cell
  | [] => []
  | .openCell name label :: rest => ⟨name, label, linesAhead rest⟩ :: cellsOf rest
  | _ :: rest => cellsOf rest

/-! ## Items -/

/-- The names and descriptions that statements define, in order. -/
def definitionsOf (ss : List Statement) : List (String × String) :=
  ss.filterMap fun
    | .defineItem name description => some (name, description)
    | _ => none

theorem definitionsOf_append (ss ss' : List Statement) :
    definitionsOf (ss ++ ss') = definitionsOf ss ++ definitionsOf ss' := List.filterMap_append

/-! ## What a story owes to an outline -/

/-- Nothing in the outline is refused: no reserved glyph, and no more names than bits. -/
def Outline.Accepted (o : Outline) : Prop :=
  (∀ word, Statement.refused word ∉ o.statements) ∧
    (definedNames (definitionsOf o.statements)).length ≤ capacity

/-- Lines behind others make nothing good. -/
theorem Outline.Accepted.of_append {lines lines' : List (List Char)}
    (h : (ofKept (lines ++ lines')).Accepted) : (ofKept lines).Accepted := by
  by_cases hne : lines = []
  · rw [hne]
    exact ⟨fun word => List.not_mem_nil, Nat.zero_le _⟩
  · rw [ofKept_append hne] at h
    obtain ⟨hrefused, hroom⟩ := h
    refine ⟨fun word hw => hrefused word (List.mem_append_left _ hw), ?_⟩
    rw [definitionsOf_append] at hroom
    exact Nat.le_trans (Registry.length_definedNames_append_le ..) hroom

/-- The story has what the outline says and nothing else.  Of the cells that share an identifier
the one opened last is there. -/
structure Outline.Describes (o : Outline) (story : Story) : Prop where
  title : story.title = o.title
  items : story.items.items = itemsOf (definitionsOf o.statements)
  cells : ∀ id, story.cell? id = (cellsOf o.statements).reverse.find? fun cell => cell.id = id

/-! ## The word loop finds the leading run

The loop carries a line that the words before have set.  The invariant is that
it carries `addLeading line ws` once it has read the leading words `ws`. -/

theorem namesBehind_cons {glyph other : Glyph} {name : String} {word : List Char}
    (hw : Directive.ofWord? word = some ⟨other, name⟩) (ws : List (List Char)) :
    namesBehind glyph (word :: ws) =
      (if other = glyph then [name] else []) ++ namesBehind glyph ws := by
  simp only [namesBehind, List.filterMap_cons, hw]
  by_cases h : other = glyph <;> simp [h]

/-- A line with leading words read in addition to those that made it. -/
def addLeading (line : Line) (ws : List (List Char)) : Line :=
  { line with
    require := line.require ++ namesBehind .require ws
    forbid := line.forbid ++ namesBehind .forbid ws
    linksTo := (namesBehind .link ws).getLast?.or line.linksTo }

@[simp] theorem addLeading_nil (line : Line) : addLeading line [] = line := by
  simp [addLeading, namesBehind]

theorem addLeading_blank (ws : List (List Char)) : addLeading .blank ws = lineOfLeading ws := by
  simp [addLeading, lineOfLeading, Line.blank]

theorem isLeading_of_ofWord? {word : List Char} {glyph : Glyph} {name : String}
    (hw : Directive.ofWord? word = some ⟨glyph, name⟩) :
    isLeading word = (glyph == .require || glyph == .forbid || glyph == .link) := by
  simp only [isLeading, hw]
  cases glyph <;> rfl

theorem Statement.ofWordsFrom_eq_ofRemainder (ws : List (List Char)) :
    ∀ line : Line,
      ofWordsFrom line ws =
        ofRemainder (addLeading line (ws.takeWhile isLeading)) (ws.dropWhile isLeading) := by
  induction ws with
  | nil => intro line; simp [ofWordsFrom, ofRemainder]
  | cons word rest ih =>
      intro line
      cases hw : Directive.ofWord? word with
      | none =>
          have hl : isLeading word = false := by simp [isLeading, hw]
          simp [ofWordsFrom, ofRemainder, hw, hl]
      | some d =>
          obtain ⟨glyph, name⟩ := d
          have hl := isLeading_of_ofWord? hw
          cases glyph with
          | require => simp [ofWordsFrom, hw, hl, ih, addLeading, namesBehind_cons hw]
          | forbid => simp [ofWordsFrom, hw, hl, ih, addLeading, namesBehind_cons hw]
          | link =>
              -- a later link takes the place of this one
              simp [ofWordsFrom, hw, hl, ih, addLeading, namesBehind_cons hw, List.getLast?_cons]
          | cell => simp [ofWordsFrom, ofRemainder, hw, hl]
          | define => simp [ofWordsFrom, ofRemainder, hw, hl]
          | give => simp [ofWordsFrom, ofRemainder, hw, hl]
          | take => simp [ofWordsFrom, ofRemainder, hw, hl]
          | reserved => simp [ofWordsFrom, ofRemainder, hw, hl]

/-- The word loop of the compiler finds what the classification says. -/
theorem Statement.ofLine_eq_classify (line : List Char) : ofLine line = classify line := by
  rw [ofLine, ofWordsFrom_eq_ofRemainder, addLeading_blank, classify]

end Gamebook.Source
