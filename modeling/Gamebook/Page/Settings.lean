/-
# Page settings

The strings and the switch that a page takes from outside the story.
-/

namespace Gamebook.Page

structure Settings where
  /-- Stands in front of every token in a link. -/
  linkLead : String
  /-- The class of links to cells that do not exist. -/
  brokenClass : String
  /-- The text of such a link that has none of its own. -/
  brokenText : String
  /-- The `id` of the inventory list. -/
  inventoryId : String
  /-- Whether a comment names the cell and the state in front of the article. -/
  cellComment : Bool
deriving DecidableEq

def Settings.default : Settings :=
  ⟨"./", "broken", "[[BROKEN LINK]]", "inventory", true⟩

end Gamebook.Page
