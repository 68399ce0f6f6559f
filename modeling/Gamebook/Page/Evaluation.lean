/-
# Evaluating lines

What the lines of a cell come to for a reader with certain holdings.  The guards
are asked first, then the gift, then the loss; the first that fails leaves the
line blank.  A gift made before a refused loss stays made.
-/
import Gamebook.Inventory
import Gamebook.Page.Settings
import Gamebook.Story
import Gamebook.Token

namespace Gamebook.Page

/-- Something that happened while making a page.  Lines of a cell are counted from 0. -/
inductive Event where
  | cellEntered (cell : CellId) (held : Holdings)
  | unknownCell (cell : CellId)
  | guardFailed (index : Nat)
  | giveRefused (index : Nat) (item : String)
  | takeRefused (index : Nat) (item : String)
  | brokenLink (index : Nat) (target : String)
  | finished (cell : CellId) (held : Holdings) (links : Nat)
deriving DecidableEq

inductive Outcome where
  | blank
  /-- The text as the story has it, markup and all. -/
  | text (s : String)
  /-- A link to a token; `broken` says that the story has no such cell. -/
  | link (token : Token) (broken : Bool) (caption : String)
deriving DecidableEq

/-- A line's outcome with the event it reports and the holdings after it. -/
structure Evaluation where
  event : Option Event
  outcome : Outcome
  held : Holdings
deriving DecidableEq

/-- The guards hold: all required items are held and no forbidden one is. -/
def guardsHold (items : Registry) (held : Holdings) (line : Line) : Bool :=
  items.hasAll held line.require && !items.hasAny held line.forbid

def firstNonempty (s fallback : String) : String := if s = "" then fallback else s

/-- The holdings after the gift, or the event that refuses it. -/
def afterGive (items : Registry) (index : Nat) (line : Line) (held : Holdings) :
    Except Event Holdings :=
  match line.give with
  | none => .ok held
  | some item =>
      match items.give? held item with
      | none => .error (.giveRefused index item)
      | some next => .ok next

/-- The holdings after the loss, or the event that refuses it. -/
def afterTake (items : Registry) (index : Nat) (line : Line) (held : Holdings) :
    Except Event Holdings :=
  match line.take with
  | none => .ok held
  | some item =>
      match items.take? held item with
      | none => .error (.takeRefused index item)
      | some next => .ok next

/-- What a line comes to when nothing suppresses it. -/
def present (settings : Settings) (story : Story) (index : Nat) (line : Line) (held : Holdings) :
    Evaluation :=
  match line.linksTo with
  | none => ⟨none, if line.text = "" then .blank else .text line.text, held⟩
  | some target =>
      match story.cellNamed? target with
      | some cell =>
          ⟨none, .link ⟨.ofName target, held⟩ false (firstNonempty line.text cell.heading), held⟩
      | none =>
          ⟨some (.brokenLink index target),
            .link ⟨.ofName target, held⟩ true (firstNonempty line.text settings.brokenText), held⟩

def evaluate (settings : Settings) (story : Story) (index : Nat) (line : Line)
    (held : Holdings) : Evaluation :=
  if guardsHold story.items held line then
    match afterGive story.items index line held with
    | .error refusal => ⟨some refusal, .blank, held⟩
    | .ok given =>
        match afterTake story.items index line given with
        | .error refusal => ⟨some refusal, .blank, given⟩
        | .ok kept => present settings story index line kept
  else ⟨some (.guardFailed index), .blank, held⟩

/-- Evaluate lines in order, each with the holdings that the one before it leaves.  The first has
the given index. -/
def evaluateLines (settings : Settings) (story : Story) (index : Nat) (held : Holdings) :
    List Line → List Evaluation
  | [] => []
  | line :: rest =>
      let e := evaluate settings story index line held
      e :: evaluateLines settings story (index + 1) e.held rest

/-- The holdings after evaluated lines: those that the last one leaves. -/
def heldAfter (held : Holdings) : List Evaluation → Holdings
  | [] => held
  | e :: rest => heldAfter e.held rest

end Gamebook.Page
