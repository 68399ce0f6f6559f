/-
# Walking through a story

A reader stands at a token and has the links of the page shown last.  A move
goes to one of these links by its number, or to a written token, or stays; the
page of the new position is then shown.  A move that fails changes nothing.
-/
import Gamebook.Page.Render

namespace Gamebook

/-- A reader's position. -/
structure Play where
  token : Token
  /-- The links of the page shown last. -/
  links : List Token

inductive Move where
  | follow (number : Nat)
  | goTo (text : String)
  | stay

inductive MoveError where
  /-- The page shown last has no link of that number. -/
  | noSuchLink
  | badToken (fault : Fault)
deriving DecidableEq

namespace Play

/-- At the start cell with nothing held and no page shown. -/
def start : Play := ⟨.start, []⟩

def target (play : Play) : Move → Except MoveError Token
  | .follow number =>
      match play.links[number]? with
      | some token => .ok token
      | none => .error .noSuchLink
  | .goTo text => (Token.ofText text).mapError .badToken
  | .stay => .ok play.token

def pageAt (settings : Page.Settings) (story : Story) (token : Token) : Page.Rendering :=
  Page.render settings story token.cell token.held

/-- Make a move and show the page it leads to. -/
def step (settings : Page.Settings) (story : Story) (play : Play) (move : Move) :
    Except MoveError (Page.Rendering × Play) :=
  (play.target move).map fun token =>
    let page := pageAt settings story token
    (page, ⟨token, page.summary.links⟩)

end Play

end Gamebook
