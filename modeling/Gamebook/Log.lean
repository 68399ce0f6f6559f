/-
# Events as log entries

How the events of compiling and rendering are put into a log: a level, a
sentence without variables, and named values as text.
-/
import Gamebook.Page.Evaluation
import Gamebook.Source.Compile

namespace Gamebook

/-- How much attention an entry asks for. -/
inductive Log.Level where
  | trace
  | debug
deriving DecidableEq

def Log.Level.text : Log.Level → String
  | trace => "TRACE"
  | debug => "DEBUG"

structure Log.Entry where
  level : Log.Level
  message : String
  values : List (String × String)
deriving DecidableEq

def Source.Event.entry : Source.Event → Log.Entry
  | .blankLine line => ⟨.trace, "blank line skipped", [("line", toString line)]⟩
  | .titleFound line title =>
      ⟨.debug, "title found", [("line", toString line), ("title", title)]⟩
  | .cellOpened line name label =>
      ⟨.debug, "cell opened",
        [("line", toString line), ("name", name), ("label", label.getD "")]⟩
  | .cellCommitted name id lines =>
      ⟨.debug, "cell committed",
        [("name", name), ("ident", id.text), ("lines", toString lines)]⟩
  | .orphansDropped count =>
      ⟨.debug, "lines before the first cell dropped", [("count", toString count)]⟩
  | .itemDefined line name bit =>
      ⟨.debug, "item defined",
        [("line", toString line), ("name", name), ("bit_index", toString bit)]⟩
  | .lineAppended line cell =>
      ⟨.trace, "line appended", [("line", toString line), ("cell", cell)]⟩

def Page.Event.entry : Page.Event → Log.Entry
  | .cellEntered cell held =>
      ⟨.debug, "rendering cell", [("cell", cell.text), ("state", held.text)]⟩
  | .unknownCell cell => ⟨.debug, "no such cell", [("cell", cell.text)]⟩
  | .guardFailed index => ⟨.trace, "line guard failed", [("index", toString index)]⟩
  | .giveRefused index item =>
      ⟨.trace, "give refused: undefined or already held",
        [("index", toString index), ("item", item)]⟩
  | .takeRefused index item =>
      ⟨.trace, "take refused: undefined or not held",
        [("index", toString index), ("item", item)]⟩
  | .brokenLink index target =>
      ⟨.debug, "link to undefined cell", [("index", toString index), ("target", target)]⟩
  | .finished cell held links =>
      ⟨.debug, "cell rendered",
        [("cell", cell.text), ("state", held.text), ("links", toString links)]⟩

end Gamebook
