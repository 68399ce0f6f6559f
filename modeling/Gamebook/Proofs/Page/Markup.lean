/-
# The tags of a page

The tags of a text are read off by splitting it at `<`: what follows up to `>` is the
tag, cut at its quotes so that attribute values stand by themselves, and what
follows from there is the text behind it.  A page is written from literal tags with
texts of a story and of settings in between and in quotes; so that nobody's text
makes a tag, what is read must be the tags that were meant.

`Spells cs marks` says that characters were written tag by tag as `marks` mean them.
Pieces of pages spell theirs one after the other (`Spells.append`), and what is
spelled is read (`Spells.splitOn_eq`) and found (`Spells.occurrences_eq`).

Main statement: `tagsOf_render`.
-/
import Gamebook.Proofs.Page.Acts
import Gamebook.Proofs.Page.Escape
import Mathlib.Data.List.Forall2
import Mathlib.Data.List.Infix

namespace Gamebook.Page

/-! ## Reading tags -/

/-- A tag, cut at its quotes, with the text behind it up to the next tag. -/
structure Tag where
  parts : List String
  /-- The tag has its closing bracket. -/
  closed : Bool
  behind : String

/-- The tag that characters behind a `<` make. -/
def Tag.ofChunk (chunk : List Char) : Tag where
  parts := ((chunk.takeWhile (· ≠ '>')).splitOn '"').map String.ofList
  closed := chunk.contains '>'
  behind := String.ofList ((chunk.dropWhile (· ≠ '>')).drop 1)

def tagsOf (text : String) : List Tag := (text.toList.splitOn '<').tail.map Tag.ofChunk

/-- The number of places at which a word stands. -/
def occurrences (word : String) (text : String) : Nat :=
  text.toList.tails.countP word.toList.isPrefixOf

/-! ## Meant tags -/

/-- Blanks and ends of lines between tags. -/
def isLayout (c : Char) : Bool := c = ' ' || c = '\n'

/-- A tag as it is meant, cut at its quotes, with the text behind it; `none` stands for any
layout. -/
structure Mark where
  parts : List String
  text : Option String

/-- The tag is read as it is meant. -/
def Tag.Fits (tag : Tag) (mark : Mark) : Prop :=
  tag.parts = mark.parts ∧ tag.closed = true ∧
    match mark.text with
    | some text => tag.behind = text
    | none => tag.behind.toList.all isLayout = true

/-- The characters between the brackets of a tag. -/
def tagText (parts : List String) : List Char := ['"'].intercalate (parts.map String.toList)

@[simp] theorem tagText_singleton (name : String) : tagText [name] = name.toList := by
  simp [tagText, List.intercalate]

@[simp] theorem tagText_cons_cons (name next : String) (parts : List String) :
    tagText (name :: next :: parts) = name.toList ++ '"' :: tagText (next :: parts) := by
  simp [tagText, List.intercalate_cons_cons]

/-- Parts that can be told apart when the tag is read. -/
def Separable (parts : List String) : Prop := parts ≠ [] ∧ ∀ part ∈ parts, MarkupFree part

instance (parts : List String) : Decidable (Separable parts) :=
  haveI : Decidable (∀ part ∈ parts, MarkupFree part) := List.decidableBAll _ parts
  instDecidableAnd

/-- Characters written as tags, each with its text or with layout behind it. -/
inductive Spells : List Char → List Mark → Prop
  | nil : Spells [] []
  | layout {c : Char} {cs : List Char} {marks : List Mark} :
      isLayout c = true → Spells cs marks → Spells (c :: cs) marks
  | tag {parts : List String} {cs : List Char} {marks : List Mark} :
      Separable parts → Spells cs marks →
      Spells ('<' :: (tagText parts ++ '>' :: cs)) (⟨parts, none⟩ :: marks)
  | text {parts : List String} {text : String} {cs : List Char} {marks : List Mark} :
      Separable parts → '<' ∉ text.toList → Spells ('<' :: cs) marks →
      Spells ('<' :: (tagText parts ++ '>' :: (text.toList ++ '<' :: cs)))
        (⟨parts, some text⟩ :: marks)

theorem Spells.append {cs ds : List Char} {marks marks' : List Mark} (h : Spells cs marks)
    (h' : Spells ds marks') : Spells (cs ++ ds) (marks ++ marks') := by
  induction h with
  | nil => exact h'
  | layout hc _ ih => exact .layout hc ih
  | tag hparts _ ih =>
      rw [List.cons_append, List.append_assoc]
      exact .tag hparts ih
  | text hparts htext _ ih =>
      rw [List.cons_append, List.append_assoc, List.cons_append, List.append_assoc]
      exact .text hparts htext ih

theorem Spells.flatMap {α : Type} {write : α → List Char} {marks : α → List Mark} {xs : List α}
    (h : ∀ x ∈ xs, Spells (write x) (marks x)) : Spells (xs.flatMap write) (xs.flatMap marks) := by
  induction xs with
  | nil => exact .nil
  | cons x xs ih =>
      exact (h x List.mem_cons_self).append (ih fun y hy => h y (List.mem_cons_of_mem _ hy))

/-! ## What is spelled is read -/

theorem mem_tagText {c : Char} {parts : List String} (h : c ∈ tagText parts) :
    c = '"' ∨ ∃ part ∈ parts, c ∈ part.toList := by
  induction parts with
  | nil => exact absurd h (by simp [tagText, List.intercalate])
  | cons part parts ih =>
      cases parts with
      | nil =>
          rw [tagText_singleton] at h
          exact Or.inr ⟨part, by simp, h⟩
      | cons next parts =>
          rw [tagText_cons_cons, List.mem_append, List.mem_cons] at h
          rcases h with h | h | h
          · exact Or.inr ⟨part, by simp, h⟩
          · exact Or.inl h
          · rcases ih h with h | ⟨p, hp, hc⟩
            · exact Or.inl h
            · exact Or.inr ⟨p, List.mem_cons_of_mem _ hp, hc⟩

theorem Separable.not_mem_tagText {parts : List String} (h : Separable parts) {c : Char}
    (hc : isMarkup c = true) (hquote : c ≠ '"') : c ∉ tagText parts := by
  intro hmem
  rcases mem_tagText hmem with rfl | ⟨part, hpart, hmem⟩
  · exact hquote rfl
  · exact (h.2 part hpart).not_mem hc hmem

/-- A tag opens nothing behind its own opening. -/
theorem Separable.opening_not_mem {parts : List String} (h : Separable parts) :
    '<' ∉ tagText parts ++ ['>'] := by
  have hmem : '<' ∉ tagText parts := h.not_mem_tagText rfl (by decide)
  simp [hmem]

theorem ne_opening_of_isLayout {c : Char} (h : isLayout c = true) : c ≠ '<' := by
  rintro rfl
  exact absurd h (by decide)

/-- A tag is read to its closing bracket, and its parts from quote to quote. -/
theorem ofChunk_tagText {parts : List String} (h : Separable parts) (behind : List Char) :
    Tag.ofChunk (tagText parts ++ '>' :: behind) = ⟨parts, true, String.ofList behind⟩ := by
  have hclose : ∀ c ∈ tagText parts, decide (c ≠ '>') = true := by
    intro c hc
    have hmem : '>' ∉ tagText parts := h.not_mem_tagText (by decide) (by decide)
    exact decide_eq_true fun e => hmem (e ▸ hc)
  have hsplit : (tagText parts).splitOn '"' = parts.map String.toList := by
    refine List.splitOn_intercalate '"' ?_ (by simpa using h.1)
    intro cs hcs
    obtain ⟨part, hpart, rfl⟩ := List.mem_map.mp hcs
    exact (h.2 part hpart).not_mem (by decide)
  rw [Tag.ofChunk, List.takeWhile_append_of_pos hclose, List.dropWhile_append_of_pos hclose]
  simp [hsplit, Function.comp_def]

/-- Characters without the separator go to the first piece. -/
theorem splitOn_append_of_not_mem {c : Char} {cs : List Char} (h : c ∉ cs) (ds : List Char) :
    (cs ++ ds).splitOn c = (ds.splitOn c).modifyHead (cs ++ ·) := by
  induction cs with
  | nil => cases hd : ds.splitOn c <;> simp [hd]
  | cons d cs ih =>
      rw [List.mem_cons, not_or] at h
      have hne : (d == c) = false := by simpa using fun e : d = c => h.1 e.symm
      rw [List.cons_append, List.splitOn_cons_eq_if_modifyHead, hne, if_neg Bool.false_ne_true,
        ih h.2, List.modifyHead_modifyHead]
      rfl

/-- A tag and a text behind it make one piece with what stands in front of the next opening. -/
theorem splitOn_tagText {parts : List String} (h : Separable parts) {text : List Char}
    (htext : '<' ∉ text) {cs lead : List Char} {chunks : List (List Char)}
    (hsplit : cs.splitOn '<' = lead :: chunks) :
    ('<' :: (tagText parts ++ '>' :: (text ++ cs))).splitOn '<' =
      [] :: (tagText parts ++ '>' :: (text ++ lead)) :: chunks := by
  have hassoc : ∀ cs, tagText parts ++ '>' :: (text ++ cs) =
      (tagText parts ++ ['>']) ++ (text ++ cs) := by simp
  refine (List.splitOn_append_cons_self_of_not_mem List.not_mem_nil _).trans ?_
  rw [hassoc, hassoc, splitOn_append_of_not_mem h.opening_not_mem,
    splitOn_append_of_not_mem htext, hsplit]
  rfl

theorem Spells.splitOn_eq {cs : List Char} {marks : List Mark} (h : Spells cs marks) :
    ∃ lead chunks, cs.splitOn '<' = lead :: chunks ∧ lead.all isLayout = true ∧
      List.Forall₂ (fun chunk mark => (Tag.ofChunk chunk).Fits mark) chunks marks := by
  induction h with
  | nil => exact ⟨[], [], rfl, rfl, .nil⟩
  | @layout c cs marks hc _ ih =>
      obtain ⟨lead, chunks, hsplit, hlead, hfits⟩ := ih
      have hne : '<' ∉ [c] := by simpa using Ne.symm (ne_opening_of_isLayout hc)
      refine ⟨c :: lead, chunks, ?_, by simp [hc, hlead], hfits⟩
      rw [← List.singleton_append, splitOn_append_of_not_mem hne, hsplit]
      rfl
  | @tag parts cs marks hparts _ ih =>
      obtain ⟨lead, chunks, hsplit, hlead, hfits⟩ := ih
      refine ⟨[], (tagText parts ++ '>' :: lead) :: chunks,
        splitOn_tagText hparts List.not_mem_nil hsplit, rfl, .cons ?_ hfits⟩
      rw [ofChunk_tagText hparts]
      exact ⟨rfl, rfl, by simpa using hlead⟩
  | @text parts text cs marks hparts htext _ ih =>
      obtain ⟨lead, chunks, hsplit, -, hfits⟩ := ih
      -- the text is followed by an opening, so nothing else stands behind the tag
      have hfirst : ('<' :: cs).splitOn '<' = [] :: cs.splitOn '<' :=
        List.splitOn_append_cons_self_of_not_mem List.not_mem_nil cs
      obtain ⟨rfl, -⟩ := List.cons.inj (hfirst.symm.trans hsplit)
      refine ⟨[], (tagText parts ++ '>' :: (text.toList ++ [])) :: chunks,
        splitOn_tagText hparts htext hsplit, rfl, .cons ?_ hfits⟩
      rw [ofChunk_tagText hparts, List.append_nil]
      exact ⟨rfl, rfl, String.ofList_toList⟩

/-! ## Places of a word -/

/-- A word is found in front of a character that it has not, or is not found. -/
theorem isPrefixOf_append_cons {word : List Char} {c : Char} (h : c ∉ word) (cs ds : List Char) :
    word.isPrefixOf (cs ++ c :: ds) = word.isPrefixOf cs := by
  induction word generalizing cs with
  | nil => simp
  | cons w word ih =>
      rw [List.mem_cons, not_or] at h
      cases cs with
      | nil => simp [List.isPrefixOf, Ne.symm h.1]
      | cons d cs => simp [List.isPrefixOf, ih h.2]

/-- No place of a word is among characters without its first one. -/
theorem countP_tails_append {w : Char} (word : List Char) {cs : List Char} (h : w ∉ cs)
    (ds : List Char) :
    (cs ++ ds).tails.countP (w :: word).isPrefixOf = ds.tails.countP (w :: word).isPrefixOf := by
  induction cs with
  | nil => rfl
  | cons c cs ih =>
      rw [List.mem_cons, not_or] at h
      have hfirst : (w :: word).isPrefixOf (c :: (cs ++ ds)) = false := by
        simp [List.isPrefixOf, h.1]
      rw [List.cons_append, List.tails_cons, List.countP_cons, ih h.2, hfirst,
        if_neg Bool.false_ne_true, Nat.add_zero]

/-- The tag has the word right behind its opening bracket: its first part begins with it. -/
def opensWith (word : List Char) : List String → Bool
  | [] => false
  | name :: _ => word.isPrefixOf name.toList

theorem isPrefixOf_tagText {word : List Char} (hquote : '"' ∉ word) (hclose : '>' ∉ word)
    {parts : List String} (h : parts ≠ []) (behind : List Char) :
    word.isPrefixOf (tagText parts ++ '>' :: behind) = opensWith word parts := by
  cases parts with
  | nil => exact absurd rfl h
  | cons name parts =>
      cases parts with
      | nil =>
          rw [isPrefixOf_append_cons hclose, tagText_singleton]
          rfl
      | cons next parts =>
          rw [tagText_cons_cons, List.append_assoc, List.cons_append,
            isPrefixOf_append_cons hquote]
          rfl

/-- Places of an opened word are tags that start with it. -/
theorem Spells.countP_tails {word : List Char} (hquote : '"' ∉ word) (hclose : '>' ∉ word)
    {cs : List Char} {marks : List Mark} (h : Spells cs marks) :
    cs.tails.countP ('<' :: word).isPrefixOf =
      (marks.map Mark.parts).countP (opensWith word) := by
  have hopen : ∀ {parts : List String}, Separable parts → ∀ behind,
      ('<' :: (tagText parts ++ '>' :: behind)).tails.countP ('<' :: word).isPrefixOf =
        behind.tails.countP ('<' :: word).isPrefixOf + if opensWith word parts then 1 else 0 := by
    intro parts hparts behind
    have hassoc : tagText parts ++ '>' :: behind = (tagText parts ++ ['>']) ++ behind := by simp
    have hfirst : ('<' :: word).isPrefixOf ('<' :: (tagText parts ++ '>' :: behind)) =
        opensWith word parts := by
      rw [List.isPrefixOf_cons_cons_self, isPrefixOf_tagText hquote hclose hparts.1]
    rw [List.tails_cons, List.countP_cons, hfirst, hassoc,
      countP_tails_append word hparts.opening_not_mem]
  induction h with
  | nil => rfl
  | @layout c cs marks hc _ ih =>
      have hne : '<' ∉ [c] := by simpa using Ne.symm (ne_opening_of_isLayout hc)
      rw [← ih]
      exact countP_tails_append word hne cs
  | tag hparts _ ih => rw [hopen hparts, ih, List.map_cons, List.countP_cons]
  | text hparts htext _ ih =>
      rw [hopen hparts, countP_tails_append word htext, ih, List.map_cons, List.countP_cons]

/-! ## The tags of a page -/

def element (name content : String) : List Mark :=
  [⟨[name], some content⟩, ⟨["/" ++ name], none⟩]

/-- What stands in a comment, which is read as a tag. -/
def commentName (id : CellId) (held : Holdings) : String :=
  "!-- cell " ++ id.text ++ " holding " ++ held.text ++ " --"

def commentMarks (settings : Settings) (id : CellId) (held : Holdings) : List Mark :=
  if settings.cellComment then [⟨[commentName id held], none⟩] else []

/-- The anchor of a link, which goes to the token behind the lead. -/
def anchorParts (settings : Settings) (token : Token) (broken : Bool) : List String :=
  (if broken then ["a class=", escape settings.brokenClass, " href="] else ["a href="]) ++
    [escape settings.linkLead ++ token.text, ""]

def outcomeMarks (settings : Settings) : Outcome → List Mark
  | .blank => []
  | .text s => element "p" s
  | .link token broken caption =>
      [⟨["p"], none⟩, ⟨anchorParts settings token broken, some (escape caption)⟩, ⟨["/a"], none⟩,
        ⟨["/p"], none⟩]

def inventoryMarks (settings : Settings) (contents : List String) : List Mark :=
  ⟨["/article"], none⟩ :: ⟨["ul id=", escape settings.inventoryId, ""], none⟩ ::
    contents.flatMap (fun d => element "li" (escape d)) ++ [⟨["/ul"], none⟩]

/-- The tags meant for a page: comment, heading, lines and inventory. -/
def pageMarks (settings : Settings) (id : CellId) (held : Holdings) (heading : String)
    (outcomes : List Outcome) (contents : List String) : List Mark :=
  commentMarks settings id held ++ ⟨["article"], none⟩ :: element "h2" (escape heading) ++
    outcomes.flatMap (outcomeMarks settings) ++ inventoryMarks settings contents

/-! ### Tags without their values -/

/-- The parts of a tag outside quotes. -/
def unquoted : List String → List String
  | name :: _ :: parts => name :: unquoted parts
  | parts => parts

inductive Kind where
  | blank
  | text
  | link (broken : Bool)
deriving DecidableEq

def Outcome.kind : Outcome → Kind
  | .blank => .blank
  | .text _ => .text
  | .link _ broken _ => .link broken

def lineFrame : Kind → List (List String)
  | .blank => []
  | .text => [["p"], ["/p"]]
  | .link false => [["p"], ["a href=", ""], ["/a"], ["/p"]]
  | .link true => [["p"], ["a class=", " href=", ""], ["/a"], ["/p"]]

/-- The tags of a page but for what stands in quotes, from kinds of lines and a number of
inventory entries alone. -/
def pageFrame (comment : Bool) (id : CellId) (held : Holdings) (kinds : List Kind)
    (entries : Nat) : List (List String) :=
  (if comment then [[commentName id held]] else []) ++
    [["article"], ["h2"], ["/h2"]] ++ kinds.flatMap lineFrame ++ [["/article"], ["ul id=", ""]] ++
    (List.replicate entries [["li"], ["/li"]]).flatten ++ [["/ul"]]

theorem unquoted_outcomeMarks (settings : Settings) (outcome : Outcome) :
    (outcomeMarks settings outcome).map (fun mark => unquoted mark.parts) =
      lineFrame outcome.kind := by
  cases outcome with
  | blank => rfl
  | text s => rfl
  | link token broken caption => cases broken <;> rfl

theorem unquoted_inventoryMarks (settings : Settings) (contents : List String) :
    (inventoryMarks settings contents).map (fun mark => unquoted mark.parts) =
      [["/article"], ["ul id=", ""]] ++
        (List.replicate contents.length [["li"], ["/li"]]).flatten ++ [["/ul"]] := by
  have hentries : (contents.flatMap fun d => element "li" (escape d)).map
      (fun mark => unquoted mark.parts) =
        (List.replicate contents.length [["li"], ["/li"]]).flatten := by
    induction contents with
    | nil => rfl
    | cons d contents ih =>
        rw [List.flatMap_cons, List.map_append, ih, List.length_cons, List.replicate_succ,
          List.flatten_cons]
        rfl
  rw [inventoryMarks, List.map_append, List.map_cons, List.map_cons, hentries]
  rfl

theorem unquoted_pageMarks (settings : Settings) (id : CellId) (held : Holdings)
    (heading : String) (outcomes : List Outcome) (contents : List String) :
    (pageMarks settings id held heading outcomes contents).map (fun mark => unquoted mark.parts) =
      pageFrame settings.cellComment id held (outcomes.map Outcome.kind) contents.length := by
  have hlines : (outcomes.flatMap (outcomeMarks settings)).map (fun mark => unquoted mark.parts) =
      (outcomes.map Outcome.kind).flatMap lineFrame := by
    rw [List.map_flatMap, List.flatMap_map]
    exact List.flatMap_congr fun outcome _ => unquoted_outcomeMarks settings outcome
  rw [pageMarks, List.map_append, List.map_append, List.map_append, hlines,
    unquoted_inventoryMarks, pageFrame, commentMarks]
  cases settings.cellComment <;> simp [element, unquoted]

/-! ### Pieces -/

theorem Spells.indent {cs : List Char} {marks : List Mark} {blanks : List Char}
    (hblanks : blanks.all isLayout = true) (h : Spells cs marks) : Spells (blanks ++ cs) marks := by
  induction blanks with
  | nil => exact h
  | cons c blanks ih =>
      rw [List.all_cons, Bool.and_eq_true] at hblanks
      exact .layout hblanks.1 (ih hblanks.2)

theorem spells_end : Spells ['\n'] [] := .layout rfl .nil

theorem spells_comment (id : CellId) (held : Holdings) :
    Spells (commentText id held).toList
      [⟨[commentName id held], none⟩] := by
  have hlead : MarkupFree "!-- cell " := by decide
  have hbetween : MarkupFree " holding " := by decide
  have hclose : MarkupFree " --" := by decide
  have hname : MarkupFree (commentName id held) :=
    (((hlead.append (markupFree_cellText id)).append hbetween).append
      (markupFree_heldText held)).append hclose
  have hparts : Separable [commentName id held] :=
    ⟨by simp, by simpa using hname⟩
  have htext : (commentText id held).toList = ['\n'] ++ '<' :: (tagText
      [commentName id held] ++ '>' :: ['\n']) := by
    unfold commentText commentName
    simp [toString]
  rw [htext]
  exact .indent rfl (.tag hparts spells_end)

theorem spells_heading (cell : Cell) :
    Spells (headingText cell).toList
      (⟨["article"], none⟩ :: element "h2" (escape cell.heading)) := by
  have htext : (headingText cell).toList =
      '<' :: (tagText ["article"] ++ '>' :: ("\n    ".toList ++
        '<' :: (tagText ["h2"] ++ '>' :: ((escape cell.heading).toList ++
          '<' :: (tagText ["/h2"] ++ '>' :: ['\n']))))) := by
    unfold headingText
    simp [toString]
  rw [htext]
  exact .tag (by decide) (.indent rfl (.text (by decide)
    ((markupFree_escape _).not_mem rfl) (.tag (by decide) spells_end)))

theorem spells_paragraph {s : String} (h : '<' ∉ s.toList) :
    Spells (paragraph s).toList (element "p" s) := by
  have htext : (paragraph s).toList = "    ".toList ++
      '<' :: (tagText ["p"] ++ '>' :: (s.toList ++ '<' :: (tagText ["/p"] ++ '>' :: ['\n']))) := by
    unfold paragraph
    simp [toString]
  rw [htext]
  exact .indent rfl (.text (by decide) h (.tag (by decide) spells_end))

theorem separable_anchorParts (settings : Settings) (token : Token) (broken : Bool) :
    Separable (anchorParts settings token broken) := by
  have htarget : MarkupFree (escape settings.linkLead ++ token.text) :=
    (markupFree_escape _).append (markupFree_tokenText token)
  have hclass : MarkupFree (escape settings.brokenClass) := markupFree_escape _
  have hclassName : MarkupFree "a class=" := by decide
  have hhref : MarkupFree " href=" := by decide
  have hdirect : MarkupFree "a href=" := by decide
  have hrest : MarkupFree "" := by decide
  cases broken with
  | false => exact ⟨by simp [anchorParts], by simp [anchorParts, htarget, hdirect, hrest]⟩
  | true =>
      exact ⟨by simp [anchorParts],
        by simp [anchorParts, htarget, hclass, hclassName, hhref, hrest]⟩

theorem spells_link (settings : Settings) (token : Token) (broken : Bool) (caption : String) :
    Spells (paragraph (anchor settings token broken caption)).toList
      (outcomeMarks settings (.link token broken caption)) := by
  have htext : (paragraph (anchor settings token broken caption)).toList = "    ".toList ++
      '<' :: (tagText ["p"] ++ '>' ::
        '<' :: (tagText (anchorParts settings token broken) ++ '>' :: ((escape caption).toList ++
          '<' :: (tagText ["/a"] ++ '>' :: '<' :: (tagText ["/p"] ++ '>' :: ['\n']))))) := by
    unfold paragraph anchor
    cases broken <;> simp [anchorParts, toString]
  rw [htext]
  exact .indent rfl (.tag (by decide) (.text (separable_anchorParts settings token broken)
    ((markupFree_escape _).not_mem rfl) (.tag (by decide) (.tag (by decide) spells_end))))

theorem spells_inventoryOpening (settings : Settings) :
    Spells (inventoryOpening settings).toList
      [⟨["/article"], none⟩, ⟨["ul id=", escape settings.inventoryId, ""], none⟩] := by
  have hlist : Separable ["ul id=", escape settings.inventoryId, ""] := by
    have hid : MarkupFree (escape settings.inventoryId) := markupFree_escape _
    have hname : MarkupFree "ul id=" := by decide
    have hrest : MarkupFree "" := by decide
    exact ⟨by simp, by simp [hid, hname, hrest]⟩
  have htext : (inventoryOpening settings).toList =
      '<' :: (tagText ["/article"] ++ '>' :: (['\n'] ++
        '<' :: (tagText ["ul id=", escape settings.inventoryId, ""] ++ '>' :: ['\n']))) := by
    unfold inventoryOpening
    simp [toString]
  rw [htext]
  exact .tag (by decide) (.indent rfl (.tag hlist spells_end))

theorem spells_inventoryEntry (description : String) :
    Spells (inventoryEntry description).toList (element "li" (escape description)) := by
  have htext : (inventoryEntry description).toList = "  ".toList ++
      '<' :: (tagText ["li"] ++ '>' :: ((escape description).toList ++
        '<' :: (tagText ["/li"] ++ '>' :: ['\n']))) := by
    unfold inventoryEntry
    simp [toString]
  rw [htext]
  exact .indent rfl (.text (by decide) ((markupFree_escape _).not_mem rfl)
    (.tag (by decide) spells_end))

theorem spells_inventoryEnd : Spells "</ul>\n".toList [⟨["/ul"], none⟩] := by
  have htext : "</ul>\n".toList = '<' :: (tagText ["/ul"] ++ '>' :: ['\n']) := by simp
  rw [htext]
  exact .tag (by decide) spells_end

/-! ### The whole page -/

theorem spells_outcomeActs (settings : Settings) (afterBlank : Bool) {outcome : Outcome}
    (h : ∀ s, outcome = .text s → '<' ∉ s.toList) :
    Spells (textOf (outcomeActs settings afterBlank outcome)).toList
      (outcomeMarks settings outcome) := by
  cases outcome with
  | blank =>
      cases afterBlank with
      | true => exact .nil
      | false => simpa [outcomeActs, outcomeMarks] using spells_end
  | text s => simpa [outcomeActs, outcomeMarks] using spells_paragraph (h s rfl)
  | link token broken caption => simpa [outcomeActs] using spells_link settings token broken caption

theorem spells_bodyActs (settings : Settings) {es : List Evaluation}
    (h : ∀ e ∈ es, ∀ s, e.outcome = .text s → '<' ∉ s.toList) :
    ∀ afterBlank, Spells (textOf (bodyActs settings afterBlank es)).toList
      ((es.map Evaluation.outcome).flatMap (outcomeMarks settings)) := by
  induction es with
  | nil => exact fun _ => .nil
  | cons e es ih =>
      intro afterBlank
      have hfirst := spells_outcomeActs settings afterBlank (h e List.mem_cons_self)
      have hrest := ih (fun e' he => h e' (List.mem_cons_of_mem _ he)) (e.outcome = .blank)
      rw [bodyActs, textOf_append, textOf_append, textOf_map_report, String.empty_append,
        String.toList_append, List.map_cons, List.flatMap_cons]
      exact hfirst.append hrest

theorem spells_commentActs (settings : Settings) (id : CellId) (held : Holdings) :
    Spells (textOf (commentActs settings id held)).toList (commentMarks settings id held) := by
  unfold commentActs commentMarks
  cases settings.cellComment with
  | false => exact .nil
  | true => simpa using spells_comment id held

theorem spells_inventoryActs (settings : Settings) (items : Registry) (held : Holdings) :
    Spells (textOf (inventoryActs settings items held)).toList
      (inventoryMarks settings (items.contents held)) := by
  have hentries := Spells.flatMap fun d (_ : d ∈ items.contents held) => spells_inventoryEntry d
  rw [inventoryActs, textOf_append, textOf_write, textOf_write, textOf_nil, String.append_empty,
    String.toList_append, String.toList_append, textOf_map_write, String.toList_join,
    List.flatMap_map]
  exact ((spells_inventoryOpening settings).append hentries).append spells_inventoryEnd

section Page

variable (settings : Settings) (story : Story)

theorem spells_render {id : CellId} {cell : Cell} (hc : story.cell? id = some cell)
    {held : Holdings}
    (h : ∀ e ∈ evaluateLines settings story 0 held cell.lines,
      ∀ s, e.outcome = .text s → '<' ∉ s.toList) :
    Spells (render settings story id held).text.toList
      (pageMarks settings id held cell.heading
        ((evaluateLines settings story 0 held cell.lines).map Evaluation.outcome)
        (story.items.contents (render settings story id held).summary.held)) := by
  rw [text_render settings story hc, String.toList_append, String.toList_append,
    String.toList_append]
  exact (((spells_commentActs settings id held).append (spells_heading cell)).append
    (spells_bodyActs settings h false)).append (spells_inventoryActs settings story.items _)

/-! ### Anchors -/

def isAnchor : List String → Bool := opensWith "a ".toList

theorem filter_isAnchor_commentMarks (id : CellId) (held : Holdings) :
    ((commentMarks settings id held).map Mark.parts).filter isAnchor = [] := by
  cases h : settings.cellComment with
  | false => simp [commentMarks, h]
  | true =>
      have hname : isAnchor [commentName id held] = false := by
        simp [isAnchor, opensWith, commentName, List.isPrefixOf]
      simp [commentMarks, h, hname]

theorem filter_isAnchor_inventoryMarks (contents : List String) :
    ((inventoryMarks settings contents).map Mark.parts).filter isAnchor = [] := by
  have hentries : ((contents.flatMap fun d => element "li" (escape d)).map
      Mark.parts).filter isAnchor = [] := by
    refine List.filter_eq_nil_iff.mpr fun parts hparts => ?_
    obtain ⟨mark, hmark, rfl⟩ := List.mem_map.mp hparts
    obtain ⟨d, -, hmark⟩ := List.mem_flatMap.mp hmark
    rcases List.mem_pair.mp hmark with rfl | rfl <;> exact Bool.false_ne_true
  have hlist : isAnchor ["/article"] = false ∧
      isAnchor ["ul id=", escape settings.inventoryId, ""] = false ∧ isAnchor ["/ul"] = false :=
    ⟨rfl, rfl, rfl⟩
  simp [inventoryMarks, hentries, hlist]

theorem filter_isAnchor_outcomeMarks (outcome : Outcome) :
    ((outcomeMarks settings outcome).map Mark.parts).filter isAnchor =
      match outcome with
      | .link token broken _ => [anchorParts settings token broken]
      | _ => [] := by
  cases outcome with
  | blank => rfl
  | text s => rfl
  | link token broken caption => cases broken <;> rfl

theorem found_render (id : CellId) (held : Holdings) :
    (render settings story id held).summary.found = (story.cell? id).isSome := by
  cases hc : story.cell? id with
  | none => rw [render_of_missing settings story hc]; rfl
  | some cell => rw [summary_render settings story hc]; rfl

theorem broken_of_present {index : Nat} {line : Line} {held : Holdings} {token : Token}
    {broken : Bool} {caption : String}
    (h : (present settings story index line held).outcome = .link token broken caption) :
    broken = !(story.cell? token.cell).isSome := by
  cases hl : line.linksTo with
  | none => by_cases ht : line.text = "" <;> simp [present, hl, ht] at h
  | some target =>
      cases hc : story.cellNamed? target with
      | some cell =>
          simp only [present, hl, hc, Outcome.link.injEq] at h
          obtain ⟨rfl, rfl, -⟩ := h
          rw [show story.cell? (.ofName target) = some cell from hc]
          rfl
      | none =>
          simp only [present, hl, hc, Outcome.link.injEq] at h
          obtain ⟨rfl, rfl, -⟩ := h
          rw [show story.cell? (.ofName target) = none from hc]
          rfl

/-- A link is broken when the story has not the cell of its token. -/
theorem broken_of_evaluate {index : Nat} {line : Line} {held : Holdings} {token : Token}
    {broken : Bool} {caption : String}
    (h : (evaluate settings story index line held).outcome = .link token broken caption) :
    broken = !(story.cell? token.cell).isSome := by
  rcases evaluate_cases settings story index line held with
    ⟨-, he⟩ | ⟨-, refusal, -, he⟩ | ⟨-, given, refusal, -, -, he⟩ | ⟨-, given, kept, -, -, he⟩
  · rw [he] at h; exact absurd h (by simp)
  · rw [he] at h; exact absurd h (by simp)
  · rw [he] at h; exact absurd h (by simp)
  · rw [he] at h; exact broken_of_present settings story h

/-- The anchor of a token, broken when its cell is not found. -/
def tokenAnchor (t : Token) : List String :=
  anchorParts settings t (!(render settings story t.cell t.held).summary.found)

theorem filter_isAnchor_evaluate (index : Nat) (line : Line) (held : Holdings) :
    ((outcomeMarks settings (evaluate settings story index line held).outcome).map
        Mark.parts).filter isAnchor =
      (evaluate settings story index line held).outcome.links.map (tokenAnchor settings story) := by
  rw [filter_isAnchor_outcomeMarks]
  cases ho : (evaluate settings story index line held).outcome with
  | blank => rfl
  | text s => rfl
  | link token broken caption =>
      have hbroken := broken_of_evaluate settings story ho
      rw [Outcome.links, List.map_singleton, tokenAnchor, found_render, ← hbroken]

theorem filter_isAnchor_evaluateLines (lines : List Line) :
    ∀ index held,
      ((((evaluateLines settings story index held lines).map Evaluation.outcome).flatMap
          (outcomeMarks settings)).map Mark.parts).filter isAnchor =
        (linksOf (evaluateLines settings story index held lines)).map
          (tokenAnchor settings story) := by
  induction lines with
  | nil => exact fun _ _ => rfl
  | cons line lines ih =>
      intro index held
      rw [linksOf_evaluateLines_cons, evaluateLines, List.map_cons, List.flatMap_cons,
        List.map_append, List.filter_append, filter_isAnchor_evaluate, ih, List.map_append]

theorem filter_isAnchor_pageMarks (id : CellId) (held : Holdings) (heading : String)
    (outcomes : List Outcome) (contents : List String) :
    ((pageMarks settings id held heading outcomes contents).map Mark.parts).filter isAnchor =
      ((outcomes.flatMap (outcomeMarks settings)).map Mark.parts).filter isAnchor := by
  have hheading : ((⟨["article"], none⟩ :: element "h2" (escape heading)).map
      Mark.parts).filter isAnchor = [] := rfl
  rw [pageMarks, List.map_append, List.map_append, List.map_append, List.filter_append,
    List.filter_append, List.filter_append, filter_isAnchor_commentMarks, hheading,
    filter_isAnchor_inventoryMarks, List.nil_append, List.nil_append, List.append_nil]

/-! ### What a page reads -/

theorem Spells.fits {text : String} {marks : List Mark} (h : Spells text.toList marks) :
    List.Forall₂ Tag.Fits (tagsOf text) marks := by
  obtain ⟨lead, chunks, hsplit, -, hfits⟩ := h.splitOn_eq
  rw [tagsOf, hsplit, List.tail_cons, List.forall₂_map_left_iff]
  exact hfits

theorem map_parts_of_fits {tags : List Tag} {marks : List Mark}
    (h : List.Forall₂ Tag.Fits tags marks) : tags.map Tag.parts = marks.map Mark.parts := by
  induction h with
  | nil => rfl
  | cons hfit _ ih => rw [List.map_cons, List.map_cons, hfit.1, ih]

/-- Places of the opening of an anchor are tags that are anchors. -/
theorem Spells.occurrences_eq {text : String} {marks : List Mark} (h : Spells text.toList marks) :
    occurrences "<a " text = ((marks.map Mark.parts).filter isAnchor).length := by
  have hword : "<a ".toList = '<' :: "a ".toList := by decide
  rw [occurrences, hword, h.countP_tails (by decide) (by decide), List.countP_eq_length_filter]
  rfl

/-- A page reads as the tags that were meant for it, whatever the story and the settings say, as
long as no literal text that it shows opens a tag itself.  Values stand in quotes and texts between
tags; what stands outside quotes depends on the kinds of lines and on the number of held items with
a description only.  The anchors are those of the links in order: each goes to its token behind the
lead, and has the class of broken links if the page of its cell is not found. -/
theorem tagsOf_render {id : CellId} {cell : Cell} (hc : story.cell? id = some cell)
    {held : Holdings}
    (h : ∀ e ∈ evaluateLines settings story 0 held cell.lines,
      ∀ s, e.outcome = .text s → '<' ∉ s.toList) :
    let page := render settings story id held
    let outcomes := (evaluateLines settings story 0 held cell.lines).map Evaluation.outcome
    let contents := story.items.contents page.summary.held
    List.Forall₂ Tag.Fits (tagsOf page.text)
        (pageMarks settings id held cell.heading outcomes contents) ∧
      (tagsOf page.text).map (fun tag => unquoted tag.parts) =
        pageFrame settings.cellComment id held (outcomes.map Outcome.kind) contents.length ∧
      occurrences "<a " page.text = page.summary.links.length ∧
      ((tagsOf page.text).map Tag.parts).filter isAnchor = page.summary.links.map fun t =>
        anchorParts settings t (!(render settings story t.cell t.held).summary.found) := by
  intro page outcomes contents
  have hspells : Spells page.text.toList
      (pageMarks settings id held cell.heading outcomes contents) :=
    spells_render settings story hc h
  have hfits := hspells.fits
  have hparts := map_parts_of_fits hfits
  have hanchors : ((pageMarks settings id held cell.heading outcomes contents).map
      Mark.parts).filter isAnchor = page.summary.links.map (tokenAnchor settings story) := by
    have hlinks : page.summary.links = linksOf (evaluateLines settings story 0 held cell.lines) :=
      congrArg Summary.links (summary_render settings story hc held)
    rw [filter_isAnchor_pageMarks, hlinks]
    exact filter_isAnchor_evaluateLines settings story cell.lines 0 held
  refine ⟨hfits, ?_, ?_, ?_⟩
  · rw [← unquoted_pageMarks, ← Function.comp_def unquoted Tag.parts, ← List.map_map, hparts,
      List.map_map, Function.comp_def]
  · rw [hspells.occurrences_eq, hanchors, List.length_map]
  · rw [hparts, hanchors]
    rfl

/-- A room with quotes and brackets in all its texts; the one that is shown as it is has no `<`. -/
def galleryRoom : Cell :=
  ⟨"Start", some "The \"<gallery>\"",
    [⟨[], [], none, none, none, "You are \"here\" > there."⟩,
      ⟨[], [], none, none, some "Out", "<a href=\"x\">"⟩]⟩

def gallery : Story :=
  { Story.empty "A gallery" .epoch with
    items := ⟨[⟨"ring", 0, "A <\"gold\"> ring"⟩], rfl, List.pairwise_singleton _ _,
      by decide⟩ }.insertCell galleryRoom

def gallerySettings : Settings := { Settings.default with brokenClass := "no\" way=\"" }

theorem tagsOf_render_gallery :
    let page := render gallerySettings gallery .start ⟨1⟩
    gallery.items.contents page.summary.held = ["A <\"gold\"> ring"] ∧
      page.summary.links = [⟨.ofName "Out", ⟨1⟩⟩] ∧
      (tagsOf page.text).map (fun tag => unquoted tag.parts) =
        [[commentName .start ⟨1⟩], ["article"], ["h2"], ["/h2"], ["p"],
          ["/p"], ["p"], ["a class=", " href=", ""], ["/a"], ["/p"], ["/article"], ["ul id=", ""],
          ["li"], ["/li"], ["/ul"]] ∧
      occurrences "<a " page.text = 1 ∧
      ((tagsOf page.text).map Tag.parts).filter isAnchor =
        [["a class=", "no&#34; way=&#34;", " href=", "./" ++ (CellId.ofName "Out").text ++ "1",
          ""]] := by
  intro page
  have hcell : gallery.cell? .start = some galleryRoom := by decide +kernel
  have hlines : (evaluateLines gallerySettings gallery 0 ⟨1⟩ galleryRoom.lines).map
      Evaluation.outcome = [.text "You are \"here\" > there.",
        .link ⟨.ofName "Out", ⟨1⟩⟩ true "<a href=\"x\">"] := by decide +kernel
  have hplain : ∀ e ∈ evaluateLines gallerySettings gallery 0 ⟨1⟩ galleryRoom.lines,
      ∀ s, e.outcome = .text s → '<' ∉ s.toList := by
    intro e he s hs
    have hmem : Outcome.text s ∈ (evaluateLines gallerySettings gallery 0 ⟨1⟩
        galleryRoom.lines).map Evaluation.outcome := hs ▸ List.mem_map_of_mem he
    rw [hlines] at hmem
    obtain rfl : s = "You are \"here\" > there." := by simpa using hmem
    decide
  have hlinks : page.summary.links = [⟨.ofName "Out", ⟨1⟩⟩] := by decide +kernel
  have hcontents : gallery.items.contents page.summary.held = ["A <\"gold\"> ring"] := by
    decide +kernel
  have hfound : (render gallerySettings gallery (.ofName "Out") ⟨1⟩).summary.found = false := by
    decide +kernel
  obtain ⟨-, hframe, hcount, hanchors⟩ := tagsOf_render gallerySettings gallery hcell hplain
  refine ⟨hcontents, hlinks, ?_, ?_, ?_⟩
  · rw [hframe, hlines, hcontents]
    decide +kernel
  · rw [hcount, hlinks]
    rfl
  · rw [hanchors, hlinks, List.map_singleton, hfound]
    decide +kernel

end Page

end Gamebook.Page
