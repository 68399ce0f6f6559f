/-
# Rendering a cell

A page is made as a sequence of acts: events reported and pieces of text
written, in the order in which they happen.  What the page reads, what an
observer sees, and what reaches a sink that takes only so many bytes are three
views of the one sequence.
-/
import Gamebook.Page.Escape
import Gamebook.Page.Evaluation

namespace Gamebook.Page

/-- Which part of the page a piece of text is. -/
inductive Piece where
  | missingCell
  | cellComment
  /-- The opening of the article with the heading. -/
  | heading
  | blankLine
  | textLine
  | linkLine
  /-- The end of the article with the opening of the list. -/
  | inventoryStart
  | inventoryItem
  | inventoryEnd
deriving DecidableEq

/-- The words for a piece in messages. -/
def Piece.text : Piece → String
  | missingCell => "missing cell notice"
  | cellComment => "cell comment"
  | heading => "cell heading"
  | blankLine => "blank line"
  | textLine => "cell line"
  | linkLine => "cell link"
  | inventoryStart => "inventory start"
  | inventoryItem => "inventory item"
  | inventoryEnd => "inventory end"

/-- A step in the making of a page. -/
inductive Act where
  | report (event : Event)
  | write (piece : Piece) (text : String)
deriving DecidableEq

/-! ## The pieces -/

def paragraph (content : String) : String := s!"    <p>{content}</p>\n"

/-- The anchor of a link; a link to no cell has the class for it. -/
def anchor (settings : Settings) (token : Token) (broken : Bool) (caption : String) : String :=
  let mark := if broken then s!" class=\"{escape settings.brokenClass}\"" else ""
  s!"<a{mark} href=\"{escape settings.linkLead}{token.text}\">{escape caption}</a>"

/-- The notice in place of a page for a cell that the story has not. -/
def missingNotice (id : CellId) : String := s!"<h2>No such cell {id.text}</h2>\n"

def commentText (id : CellId) (held : Holdings) : String :=
  s!"\n<!-- cell {id.text} holding {held.text} -->\n"

def headingText (cell : Cell) : String := s!"<article>\n    <h2>{escape cell.heading}</h2>\n"

/-- The end of the article and the opening of the list of held items. -/
def inventoryOpening (settings : Settings) : String :=
  s!"</article>\n<ul id=\"{escape settings.inventoryId}\">\n"

def inventoryEntry (description : String) : String := s!"  <li>{escape description}</li>\n"

/-! ## The lines of a cell -/

/-- The writing that an outcome asks for.  Of blanks in a row only the first writes. -/
def outcomeActs (settings : Settings) (afterBlank : Bool) : Outcome → List Act
  | .blank => if afterBlank then [] else [.write .blankLine "\n"]
  | .text s => [.write .textLine (paragraph s)]
  | .link token broken caption =>
      [.write .linkLine (paragraph (anchor settings token broken caption))]

/-- The acts for evaluated lines in order: each reports its event, then writes. -/
def bodyActs (settings : Settings) (afterBlank : Bool) : List Evaluation → List Act
  | [] => []
  | e :: rest =>
      e.event.toList.map .report ++ outcomeActs settings afterBlank e.outcome ++
        bodyActs settings (e.outcome = .blank) rest

/-- The tokens that an outcome contributes: its own, if it is a link. -/
def Outcome.links : Outcome → List Token
  | .link token _ _ => [token]
  | _ => []

def linksOf (es : List Evaluation) : List Token := es.flatMap fun e => e.outcome.links

/-! ## The page -/

/-- What is known of a page besides its text. -/
structure Summary where
  cell : CellId
  found : Bool
  held : Holdings
  links : List Token
deriving DecidableEq

/-- A page with all that happened in making it. -/
structure Rendering where
  acts : List Act
  summary : Summary

def inventoryActs (settings : Settings) (items : Registry) (held : Holdings) : List Act :=
  .write .inventoryStart (inventoryOpening settings) ::
    (items.contents held).map (fun d => .write .inventoryItem (inventoryEntry d)) ++
    [.write .inventoryEnd "</ul>\n"]

/-- The comment in front of the article, if the settings ask for it. -/
def commentActs (settings : Settings) (id : CellId) (held : Holdings) : List Act :=
  if settings.cellComment then [.write .cellComment (commentText id held)] else []

def renderCell (settings : Settings) (story : Story) (id : CellId) (cell : Cell)
    (held : Holdings) : Rendering :=
  let es := evaluateLines settings story 0 held cell.lines
  let after := heldAfter held es
  ⟨.report (.cellEntered id held) :: commentActs settings id held ++
      .write .heading (headingText cell) :: bodyActs settings false es ++
      inventoryActs settings story.items after ++
      [.report (.finished id after (linksOf es).length)],
    ⟨id, true, after, linksOf es⟩⟩

/-- The page of a cell for a reader with certain holdings. -/
def render (settings : Settings) (story : Story) (id : CellId) (held : Holdings) : Rendering :=
  match story.cell? id with
  | some cell => renderCell settings story id cell held
  | none =>
      ⟨[.report (.unknownCell id), .write .missingCell (missingNotice id)],
        ⟨id, false, held, []⟩⟩

/-! ## Views of the acts -/

def eventsOf (acts : List Act) : List Event :=
  acts.filterMap fun
    | .report event => some event
    | .write _ _ => none

def textOf : List Act → String
  | [] => ""
  | .report _ :: rest => textOf rest
  | .write _ text :: rest => text ++ textOf rest

/-- What reaches a sink and an observer when the sink may refuse. -/
structure Delivery where
  accepted : List UInt8
  events : List Event
  /-- The piece that holds the first refused byte, if one was refused. -/
  refused : Option Piece

/-- Write into a sink that takes `room` bytes and then refuses.  Nothing happens after a
refusal. -/
def deliver (room : Nat) : List Act → Delivery
  | [] => ⟨[], [], none⟩
  | .report event :: rest =>
      let d := deliver room rest
      { d with events := event :: d.events }
  | .write piece text :: rest =>
      let bytes := text.toUTF8.toList
      if bytes.length ≤ room then
        let d := deliver (room - bytes.length) rest
        { d with accepted := bytes ++ d.accepted }
      else ⟨bytes.take room, [], some piece⟩

/-- A page could not be written to its end. -/
structure WriteError where
  piece : Piece
  written : Nat
deriving DecidableEq

def WriteError.message (e : WriteError) : String := s!"writing {e.piece.text}: closed"

namespace Rendering

def text (r : Rendering) : String := textOf r.acts

def events (r : Rendering) : List Event := eventsOf r.acts

def deliver (r : Rendering) (room : Nat) : Delivery := Page.deliver room r.acts

/-- The summary of the page, unless such a sink refused a byte of it. -/
def writeTo (r : Rendering) (room : Nat) : Except WriteError Summary :=
  match (r.deliver room).refused with
  | none => .ok r.summary
  | some piece => .error ⟨piece, (r.deliver room).accepted.length⟩

end Rendering

end Gamebook.Page
