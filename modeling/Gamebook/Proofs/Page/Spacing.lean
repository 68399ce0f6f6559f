/-
# The spacing of a page

Of blanks in a row a page shows one empty line, at the front and at the end of a cell as
well as in its midst.  A cell thus falls into stretches, which are as many blanks as
stand in a row or one outcome that shows something, and each stretch is written once
(`textOf_bodyActs_stretches`).

Everything else that a page writes is lines with a line end each, and none of them is
empty but the one in front of the comment.  So an empty line is never followed by
another.  `Calm n` says this of characters of which `n` more line ends may come first:
a line that is not empty allows one again (`Calm.line`).  It needs texts that are
themselves without line ends, and those of a compiled story are.

Main statement: `spacing_of_render`.
-/
import Gamebook.Proofs.Page.Account
import Gamebook.Proofs.Page.Escape
import Gamebook.Proofs.Source.Shape
import Mathlib.Data.List.Chain

namespace Gamebook.Page

/-! ## Stretches -/

/-- Blanks in a row, or one outcome that shows something. -/
inductive Stretch where
  /-- A blank and so many more behind it. -/
  | blanks (more : Nat)
  | shown (outcome : Outcome) (something : outcome ≠ .blank)

namespace Stretch

def outcomes : Stretch → List Outcome
  | blanks more => .blank :: List.replicate more .blank
  | shown outcome _ => [outcome]

def isBlanks : Stretch → Bool
  | blanks _ => true
  | shown .. => false

/-- Blanks do not stand beside blanks. -/
def Apart (s t : Stretch) : Prop := s.isBlanks = true → t.isBlanks = false

/-- A single line end for blanks, however many, and its paragraph for an outcome. -/
def text (settings : Settings) : Stretch → String
  | blanks _ => "\n"
  | shown outcome _ => (outcome.paragraph? settings).getD ""

/-- Put a blank in front. -/
def consBlank : List Stretch → List Stretch
  | blanks more :: rest => blanks (more + 1) :: rest
  | rest => blanks 0 :: rest

/-- What is left behind a blank: blanks at the front belong to it. -/
def behindBlank : List Stretch → List Stretch
  | blanks _ :: rest => rest
  | rest => rest

end Stretch

/-- The stretches that outcomes fall into. -/
def stretches : List Outcome → List Stretch
  | [] => []
  | outcome :: rest =>
      if h : outcome = .blank then Stretch.consBlank (stretches rest)
      else .shown outcome h :: stretches rest

theorem flatMap_consBlank (ss : List Stretch) :
    (Stretch.consBlank ss).flatMap Stretch.outcomes = .blank :: ss.flatMap Stretch.outcomes := by
  match ss with
  | [] => rfl
  | .blanks more :: ss => rfl
  | .shown outcome h :: ss => rfl

/-- No outcome is lost, and they stay in order. -/
theorem flatMap_stretches (outcomes : List Outcome) :
    (stretches outcomes).flatMap Stretch.outcomes = outcomes := by
  induction outcomes with
  | nil => rfl
  | cons outcome rest ih =>
      rw [stretches]
      split
      next h => rw [flatMap_consBlank, ih, h]
      next h => rw [List.flatMap_cons, ih]; rfl

theorem isChain_consBlank {ss : List Stretch} (h : ss.IsChain Stretch.Apart) :
    (Stretch.consBlank ss).IsChain Stretch.Apart := by
  match ss with
  | [] => exact .singleton _
  | .blanks more :: [] => exact .singleton _
  | .blanks more :: s :: ss =>
      obtain ⟨hfirst, hrest⟩ := List.isChain_cons_cons.mp h
      exact .cons_cons hfirst hrest
  | .shown outcome ho :: ss => exact .cons_cons (fun _ => rfl) h

theorem isChain_stretches (outcomes : List Outcome) :
    (stretches outcomes).IsChain Stretch.Apart := by
  induction outcomes with
  | nil => exact .nil
  | cons outcome rest ih =>
      rw [stretches]
      split
      next => exact isChain_consBlank ih
      next => exact List.isChain_cons.mpr ⟨fun _ _ h => Bool.noConfusion h, ih⟩

section Settings

variable (settings : Settings)

theorem join_consBlank (ss : List Stretch) :
    String.join ((Stretch.consBlank ss).map (Stretch.text settings)) =
      "\n" ++ String.join ((Stretch.behindBlank ss).map (Stretch.text settings)) := by
  match ss with
  | [] => rfl
  | .blanks more :: ss => exact String.join_cons
  | .shown outcome h :: ss => exact String.join_cons

theorem behindBlank_consBlank (ss : List Stretch) :
    Stretch.behindBlank (Stretch.consBlank ss) = Stretch.behindBlank ss := by
  match ss with
  | [] => rfl
  | .blanks more :: ss => rfl
  | .shown outcome h :: ss => rfl

theorem textOf_outcomeActs {outcome : Outcome} (h : outcome ≠ .blank) (afterBlank : Bool) :
    textOf (outcomeActs settings afterBlank outcome) = (Stretch.shown outcome h).text settings := by
  cases outcome with
  | blank => exact absurd rfl h
  | text s => exact String.append_empty
  | link token broken caption => exact String.append_empty

/-- Lines write each of their stretches once; behind a blank, blanks at the front are written
already. -/
theorem textOf_bodyActs_stretches (es : List Evaluation) :
    textOf (bodyActs settings false es) =
        String.join ((stretches (es.map Evaluation.outcome)).map (Stretch.text settings)) ∧
      textOf (bodyActs settings true es) =
        String.join ((Stretch.behindBlank (stretches (es.map Evaluation.outcome))).map
          (Stretch.text settings)) := by
  induction es with
  | nil => exact ⟨rfl, rfl⟩
  | cons e es ih =>
      obtain ⟨hfirst, hbehind⟩ := ih
      rw [List.map_cons, stretches, bodyActs, bodyActs, textOf_append, textOf_append, textOf_append,
        textOf_append, textOf_map_report, String.empty_append, String.empty_append]
      by_cases h : e.outcome = .blank
      · rw [dif_pos h, decide_eq_true h, hbehind, join_consBlank, behindBlank_consBlank, h]
        exact ⟨rfl, String.empty_append⟩
      · rw [dif_neg h, decide_eq_false h, hfirst, textOf_outcomeActs settings h,
          textOf_outcomeActs settings h, List.map_cons, String.join_cons]
        exact ⟨rfl, String.join_cons.symm⟩

end Settings

/-! ## Line ends in a row -/

/-- At most `n` line ends stand at the front, and nowhere three in a row. -/
inductive Calm : Nat → List Char → Prop
  | nil (n : Nat) : Calm n []
  | newline {n : Nat} {cs : List Char} : Calm n cs → Calm (n + 1) ('\n' :: cs)
  | other {c : Char} {cs : List Char} (n : Nat) : c ≠ '\n' → Calm 2 cs → Calm n (c :: cs)

theorem Calm.mono {n m : Nat} {cs : List Char} (h : Calm n cs) (hle : n ≤ m) : Calm m cs := by
  induction h generalizing m with
  | nil => exact .nil m
  | newline _ ih =>
      obtain ⟨m, rfl⟩ := Nat.exists_eq_add_of_lt hle
      exact .newline (ih (Nat.le_add_right ..))
  | other _ hc h => exact .other m hc h

theorem Calm.of_append {front cs : List Char} {n : Nat} (h : Calm n (front ++ cs)) (hn : n ≤ 2) :
    Calm 2 cs := by
  induction front generalizing n with
  | nil => exact h.mono hn
  | cons c front ih =>
      cases h with
      | newline h => exact ih h (by omega)
      | other _ _ h => exact ih h (Nat.le_refl 2)

theorem Calm.not_isInfix {cs : List Char} (h : Calm 2 cs) : ¬ ['\n', '\n', '\n'] <:+: cs := by
  rintro ⟨front, behind, rfl⟩
  rw [List.append_assoc] at h
  cases h.of_append (Nat.le_refl 2) with
  | other _ hc => exact hc rfl
  | newline h =>
      cases h with
      | other _ hc => exact hc rfl
      | newline h =>
          cases h with
          | other _ hc => exact hc rfl

/-- Something without line ends stands in front, so that two may follow. -/
theorem Calm.words {front cs : List Char} (hne : front ≠ []) (h : '\n' ∉ front) (hcs : Calm 2 cs)
    (n : Nat) : Calm n (front ++ cs) := by
  induction front generalizing n with
  | nil => exact absurd rfl hne
  | cons c front ih =>
      rw [List.mem_cons, not_or] at h
      refine .other n (Ne.symm h.1) ?_
      by_cases hnil : front = []
      · rw [hnil]
        exact hcs
      · exact ih hnil h.2 2

/-! ## Texts and lines -/

/-- No line ends in the text. -/
def Unbroken (s : String) : Prop := '\n' ∉ s.toList

instance (s : String) : Decidable (Unbroken s) := inferInstanceAs (Decidable (¬ _))

theorem Unbroken.append {s t : String} (hs : Unbroken s) (ht : Unbroken t) :
    Unbroken (s ++ t) := by
  rw [Unbroken, String.toList_append, List.mem_append, not_or]
  exact ⟨hs, ht⟩

theorem Unbroken.escape {s : String} (h : Unbroken s) : Unbroken (escape s) := by
  intro hmem
  rw [toList_escape, List.mem_flatMap] at hmem
  obtain ⟨c, hc, hmem⟩ := hmem
  have hentities : ∀ entity ∈ entities, Unbroken entity := by decide
  rcases escapeChar_cases c with ⟨entity, hentity, he⟩ | ⟨-, he⟩
  · exact hentities entity hentity (he ▸ hmem)
  · rw [he, List.mem_singleton] at hmem
    exact h (hmem ▸ hc)

theorem unbroken_of_isLowerHex {s : String} (h : ∀ c ∈ s.toList, Text.IsLowerHex c) : Unbroken s :=
  fun hmem => absurd (h _ hmem) (by decide)

theorem unbroken_cellText (id : CellId) : Unbroken id.text :=
  unbroken_of_isLowerHex fun _ => isLowerHex_of_mem_cellText

theorem unbroken_heldText (held : Holdings) : Unbroken held.text :=
  unbroken_of_isLowerHex fun _ => isLowerHex_of_mem_heldText

theorem unbroken_tokenText (t : Token) : Unbroken t.text :=
  (unbroken_cellText t.cell).append (unbroken_heldText t.held)

theorem unbroken_of_isName {s : String} (h : Source.IsName s.toList) : Unbroken s :=
  fun hmem => absurd (h.2 _ hmem) (by decide)

/-- A line that is not empty, with its line end. -/
def IsLine (s : String) : Prop := ∃ cs, s.toList = cs ++ ['\n'] ∧ cs ≠ [] ∧ '\n' ∉ cs

theorem isLine_of_unbroken {words : String} (h : Unbroken words) (hne : words ≠ "") :
    IsLine (words ++ "\n") :=
  ⟨words.toList, String.toList_append, by simpa using hne, h⟩

/-- A text between others that are in the line whatever it is. -/
theorem isLine_between {front words back : String} (hne : front ≠ "") (hfront : Unbroken front)
    (h : Unbroken words) (hback : Unbroken back) : IsLine (front ++ words ++ back ++ "\n") :=
  isLine_of_unbroken ((hfront.append h).append hback) (by simp [hne])

/-- Behind such a line, one more line end may follow. -/
theorem Calm.line {s : String} (hs : IsLine s) {cs : List Char} (h : Calm 1 cs) (n : Nat) :
    Calm n (s.toList ++ cs) := by
  obtain ⟨words, htext, hne, hwords⟩ := hs
  rw [htext, List.append_assoc]
  exact .words hne hwords (.newline h) n

/-- Lines one below the other. -/
theorem Calm.lines {ls : List String} (h : ∀ l ∈ ls, IsLine l) {cs : List Char} (hcs : Calm 1 cs) :
    Calm 1 ((String.join ls).toList ++ cs) := by
  induction ls with
  | nil => exact hcs
  | cons l ls ih =>
      rw [String.join_cons, String.toList_append, List.append_assoc]
      exact .line (h l List.mem_cons_self) (ih fun l' hl' => h l' (List.mem_cons_of_mem _ hl')) 1

/-- Stretches, of which those that show something are lines.  What follows them has no line end at
its front, and so they have one at most. -/
theorem Calm.stretches {settings : Settings} {cs : List Char} (hcs : Calm 0 cs)
    {ss : List Stretch} (hchain : ss.IsChain Stretch.Apart)
    (hlines : ∀ s ∈ ss, s.isBlanks = false → IsLine (s.text settings)) :
    Calm 1 ((String.join (ss.map (Stretch.text settings))).toList ++ cs) ∧
      ((∀ s ∈ ss.head?, s.isBlanks = false) →
        Calm 0 ((String.join (ss.map (Stretch.text settings))).toList ++ cs)) := by
  induction ss with
  | nil => exact ⟨hcs.mono (Nat.zero_le 1), fun _ => hcs⟩
  | cons s ss ih =>
      obtain ⟨hapart, hrest⟩ := List.isChain_cons.mp hchain
      obtain ⟨hone, hnone⟩ := ih hrest fun t ht => hlines t (List.mem_cons_of_mem _ ht)
      rw [List.map_cons, String.join_cons, String.toList_append, List.append_assoc]
      cases s with
      | blanks more =>
          have hbehind := hnone fun t ht => hapart t ht rfl
          have hnewline : "\n".toList = ['\n'] := rfl
          rw [Stretch.text, hnewline]
          exact ⟨.newline hbehind, fun h => absurd (h _ rfl) (by simp [Stretch.isBlanks])⟩
      | shown outcome h =>
          have hline := hlines _ List.mem_cons_self rfl
          exact ⟨.line hline hone 1, fun _ => .line hline hone 0⟩

/-! ## The pieces of a page -/

/-- None of the strings has a line end in it. -/
structure Settings.Unbroken (settings : Settings) : Prop where
  linkLead : Page.Unbroken settings.linkLead
  brokenClass : Page.Unbroken settings.brokenClass
  brokenText : Page.Unbroken settings.brokenText
  inventoryId : Page.Unbroken settings.inventoryId

/-- What is shown has no line end in it. -/
def Outcome.Unbroken : Outcome → Prop
  | .blank => True
  | .text s => Page.Unbroken s
  | .link _ _ caption => Page.Unbroken caption

theorem isLine_paragraph {content : String} (h : Unbroken content) :
    IsLine (paragraph content) := by
  have htext : paragraph content = "    <p>" ++ content ++ "</p>" ++ "\n" := by
    unfold paragraph
    simp [toString, String.append_assoc]
  rw [htext]
  exact isLine_between (by decide) (by decide) h (by decide)

theorem isLine_missingNotice (id : CellId) : IsLine (missingNotice id) := by
  have htext : missingNotice id = "<h2>No such cell " ++ id.text ++ "</h2>" ++ "\n" := by
    unfold missingNotice
    simp [toString, String.append_assoc]
  rw [htext]
  exact isLine_between (by decide) (by decide) (unbroken_cellText id) (by decide)

theorem isLine_inventoryEntry {description : String} (h : Unbroken description) :
    IsLine (inventoryEntry description) := by
  have htext : inventoryEntry description =
      "  <li>" ++ escape description ++ "</li>" ++ "\n" := by
    unfold inventoryEntry
    simp [toString, String.append_assoc]
  rw [htext]
  exact isLine_between (by decide) (by decide) h.escape (by decide)

/-- The comment has an empty line in front of it. -/
theorem calm_commentActs (settings : Settings) (id : CellId) (held : Holdings) {cs : List Char}
    (hcs : Calm 1 cs) : Calm 2 ((textOf (commentActs settings id held)).toList ++ cs) := by
  have hwords : Unbroken (id.text ++ " holding " ++ held.text) :=
    ((unbroken_cellText id).append (by decide)).append (unbroken_heldText held)
  have hcomment :
      IsLine ("<!-- cell " ++ (id.text ++ " holding " ++ held.text) ++ " -->" ++ "\n") :=
    isLine_between (by decide) (by decide) hwords (by decide)
  have htext : (commentText id held).toList =
      '\n' :: ("<!-- cell " ++ (id.text ++ " holding " ++ held.text) ++ " -->" ++ "\n").toList := by
    unfold commentText
    simp [toString]
  rw [commentActs]
  split
  next =>
    rw [textOf_write, textOf_nil, String.append_empty, htext]
    exact .newline (.line hcomment hcs 1)
  next => exact hcs.mono (Nat.le_succ 1)

theorem calm_headingText {cell : Cell} (h : Unbroken cell.heading) {cs : List Char}
    (hcs : Calm 1 cs) : Calm 1 ((headingText cell).toList ++ cs) := by
  have htext : headingText cell =
      "<article>" ++ "\n" ++ ("    <h2>" ++ escape cell.heading ++ "</h2>" ++ "\n") := by
    unfold headingText
    simp [toString, ← String.toList_inj]
  rw [htext, String.toList_append, List.append_assoc]
  exact .line (isLine_of_unbroken (by decide) (by decide))
    (.line (isLine_between (by decide) (by decide) h.escape (by decide)) hcs 1) 1

theorem calm_inventoryOpening {settings : Settings} (h : settings.Unbroken) {cs : List Char}
    (hcs : Calm 1 cs) : Calm 0 ((inventoryOpening settings).toList ++ cs) := by
  have htext : inventoryOpening settings =
      "</article>" ++ "\n" ++ ("<ul id=\"" ++ escape settings.inventoryId ++ "\">" ++ "\n") := by
    unfold inventoryOpening
    simp [toString, ← String.toList_inj]
  rw [htext, String.toList_append, List.append_assoc]
  exact .line (isLine_of_unbroken (by decide) (by decide))
    (.line (isLine_between (by decide) (by decide) h.inventoryId.escape (by decide)) hcs 1) 0

/-- The end of the article and the list are lines and nothing else. -/
theorem calm_inventoryActs {settings : Settings} (h : settings.Unbroken) {items : Registry}
    {held : Holdings} (hcontents : ∀ description ∈ items.contents held, Unbroken description) :
    Calm 0 (textOf (inventoryActs settings items held)).toList := by
  have hentries : ∀ entry ∈ (items.contents held).map inventoryEntry, IsLine entry := by
    intro entry hentry
    obtain ⟨description, hmem, rfl⟩ := List.mem_map.mp hentry
    exact isLine_inventoryEntry (hcontents description hmem)
  have hend : Calm 1 (("</ul>" ++ "\n").toList ++ []) :=
    .line (isLine_of_unbroken (by decide) (by decide)) (.nil 1) 1
  rw [inventoryActs, textOf_append, textOf_write, textOf_map_write, textOf_write, textOf_nil]
  simp only [String.toList_append, List.append_assoc]
  exact calm_inventoryOpening h (.lines hentries hend)

theorem Settings.Unbroken.anchor {settings : Settings} (h : settings.Unbroken) (token : Token)
    (broken : Bool) {caption : String} (hcaption : Page.Unbroken caption) :
    Page.Unbroken (anchor settings token broken caption) := by
  have htarget : Page.Unbroken (escape settings.linkLead ++ token.text) :=
    h.linkLead.escape.append (unbroken_tokenText token)
  have hclass := h.brokenClass.escape
  have htext := hcaption.escape
  unfold Page.Unbroken at htarget hclass htext ⊢
  unfold Page.anchor
  cases broken <;> simp_all [toString]

/-- A stretch that shows something is a line. -/
theorem isLine_stretch {settings : Settings} (h : settings.Unbroken) {s : Stretch}
    (hs : s.isBlanks = false) (houtcome : ∀ outcome ∈ s.outcomes, outcome.Unbroken) :
    IsLine (s.text settings) := by
  cases s with
  | blanks more => exact nomatch hs
  | shown outcome hsome =>
      have hshown : outcome.Unbroken := houtcome _ (List.mem_singleton_self outcome)
      cases outcome with
      | blank => exact absurd rfl hsome
      | text s => exact isLine_paragraph hshown
      | link token broken caption => exact isLine_paragraph (h.anchor token broken hshown)

/-- No outcome of the lines has a line end in it, and so the body has no empty line at its end and
one at its front at most. -/
theorem calm_bodyActs {settings : Settings} (h : settings.Unbroken) {es : List Evaluation}
    (houtcomes : ∀ outcome ∈ es.map Evaluation.outcome, outcome.Unbroken) {cs : List Char}
    (hcs : Calm 0 cs) : Calm 1 ((textOf (bodyActs settings false es)).toList ++ cs) := by
  have hlines : ∀ s ∈ stretches (es.map Evaluation.outcome), s.isBlanks = false →
      IsLine (s.text settings) := by
    intro s hs hshown
    refine isLine_stretch h hshown fun outcome hmem => houtcomes outcome ?_
    rw [← flatMap_stretches (es.map Evaluation.outcome)]
    exact List.mem_flatMap.mpr ⟨s, hs, hmem⟩
  rw [(textOf_bodyActs_stretches settings es).1]
  exact (hcs.stretches (isChain_stretches _) hlines).1

/-! ## Pages of compiled stories -/

theorem unbroken_heading {cell : Cell} (h : cell.WellShaped) : Unbroken cell.heading := by
  rw [Cell.heading]
  cases hl : cell.label with
  | none => exact unbroken_of_isName h.name
  | some label => exact (h.label label hl).2.no_newline

theorem unbroken_contents {story : Story} (h : story.WellShaped) (held : Holdings) :
    ∀ description ∈ story.items.contents held, Unbroken description := by
  intro description hmem
  obtain ⟨item, hitem, rfl⟩ := List.mem_map.mp hmem
  exact (h.items item (List.mem_of_mem_filter hitem)).description.no_newline

theorem Unbroken.firstNonempty {s fallback : String} (hs : Unbroken s) (h : Unbroken fallback) :
    Unbroken (firstNonempty s fallback) := by
  rw [Page.firstNonempty]
  split
  next => exact h
  next => exact hs

section Compiled

variable {settings : Settings} (hsettings : settings.Unbroken) {story : Story}
  (hstory : story.WellShaped)
include hsettings hstory

theorem unbroken_present {index : Nat} {line : Line} (hline : line.WellShaped) (held : Holdings) :
    (present settings story index line held).outcome.Unbroken := by
  have htext : Unbroken line.text := hline.text.no_newline
  cases hl : line.linksTo with
  | none => by_cases ht : line.text = "" <;> simp [present, hl, ht, Outcome.Unbroken, htext]
  | some target =>
      cases hc : story.cellNamed? target with
      | some cell =>
          simp only [present, hl, hc]
          exact htext.firstNonempty (unbroken_heading (hstory.cells _ cell hc))
      | none =>
          simp only [present, hl, hc]
          exact htext.firstNonempty hsettings.brokenText

theorem unbroken_evaluate {index : Nat} {line : Line} (hline : line.WellShaped) (held : Holdings) :
    (evaluate settings story index line held).outcome.Unbroken := by
  rcases evaluate_cases settings story index line held with
    ⟨-, he⟩ | ⟨-, refusal, -, he⟩ | ⟨-, given, refusal, -, -, he⟩ | ⟨-, given, kept, -, -, he⟩
  · rw [he]; trivial
  · rw [he]; trivial
  · rw [he]; trivial
  · rw [he]; exact unbroken_present hsettings hstory hline kept

theorem unbroken_evaluateLines {lines : List Line} (hlines : ∀ line ∈ lines, line.WellShaped)
    (held : Holdings) :
    ∀ outcome ∈ (evaluateLines settings story 0 held lines).map Evaluation.outcome,
      outcome.Unbroken := by
  intro outcome houtcome
  rw [evaluateLines_eq_map, List.map_map] at houtcome
  obtain ⟨⟨line, i⟩, hline, rfl⟩ := List.mem_map.mp houtcome
  exact unbroken_evaluate hsettings hstory (hlines line (List.fst_mem_of_mem_zipIdx hline)) _

/-- A page begins with the empty line in front of its comment, or with the line of its article. -/
theorem calm_text_render (id : CellId) (held : Holdings) :
    Calm 2 (render settings story id held).text.toList := by
  cases hc : story.cell? id with
  | none =>
      have htext : (render settings story id held).text = missingNotice id ++ "" := by
        rw [render_of_missing settings story hc]
        rfl
      rw [htext, String.toList_append]
      exact .line (isLine_missingNotice id) (.nil 1) 2
  | some cell =>
      have hcell := hstory.cells id cell hc
      have hbody := calm_bodyActs hsettings
        (unbroken_evaluateLines hsettings hstory hcell.lines held)
        (calm_inventoryActs hsettings (unbroken_contents hstory
          (render settings story id held).summary.held))
      rw [text_render settings story hc]
      simp only [String.toList_append, List.append_assoc]
      exact calm_commentActs settings id held (calm_headingText (unbroken_heading hcell) hbody)

end Compiled

/-- A page shows, in order, each line that comes to something, and one empty line for as many
blanks as stand in a row, wherever they stand.  The body falls into stretches of blanks, none beside
another, and single outcomes that are not blank.  So the page of a compiled story nowhere has three
line ends in a row, if the strings of the settings have none at all. -/
theorem spacing_of_render (settings : Settings) :
    (∀ (story : Story) (id : CellId) (cell : Cell) (held : Holdings), story.cell? id = some cell →
      let page := render settings story id held
      ∃ ss : List Stretch,
        ss.flatMap Stretch.outcomes =
            (evaluateLines settings story 0 held cell.lines).map Evaluation.outcome ∧
          ss.IsChain Stretch.Apart ∧
          page.text = textOf (commentActs settings id held) ++ headingText cell ++
            String.join (ss.map (Stretch.text settings)) ++
            textOf (inventoryActs settings story.items page.summary.held)) ∧
    (settings.Unbroken →
      ∀ (compiledAt : Timestamp) (source : String) (story : Story),
        (Source.compile compiledAt source).result = .ok story →
        ∀ (id : CellId) (held : Holdings),
          ¬ ['\n', '\n', '\n'] <:+: (render settings story id held).text.toList) := by
  constructor
  · intro story id cell held hc
    refine ⟨stretches _, flatMap_stretches _, isChain_stretches _, ?_⟩
    rw [← (textOf_bodyActs_stretches settings _).1]
    exact text_render settings story hc held
  · intro hsettings compiledAt source story hstory id held
    obtain ⟨draft, events, hr, rfl, -⟩ := Source.exists_reached_of_result hstory
    exact (calm_text_render hsettings hr.wellShaped_close id held).not_isInfix

/-- Two lines in a row that nobody sees at the front and in the midst, and one at the end. -/
def fogSource : String :=
  "A fog
:Start
?lamp Walls.
?lamp A door.
Fog.
?lamp A bell.
?lamp A rope.
>Start On
?lamp The end."

/-- What its lines come to without a lamp. -/
def fogOutcomes : List Outcome :=
  [.blank, .blank, .text "Fog.", .blank, .blank, .link .start false "On", .blank]

theorem spacing_of_render_fog :
    ∃ story cell, (Source.compile .epoch fogSource).result = .ok story ∧
      story.cell? .start = some cell ∧ Settings.default.Unbroken ∧
      (∃ ss : List Stretch, ss.flatMap Stretch.outcomes = fogOutcomes ∧
        ss.IsChain Stretch.Apart ∧
        (render .default story .start .empty).text =
          textOf (commentActs .default .start .empty) ++ headingText cell ++
            String.join (ss.map (Stretch.text .default)) ++
            (inventoryOpening .default ++ "</ul>\n")) ∧
      ¬ ['\n', '\n', '\n'] <:+: (render .default story .start .empty).text.toList := by
  have hread : (Source.compile .epoch fogSource).result.toOption.bind (fun story =>
        (story.cell? .start).map fun cell =>
          ((evaluateLines .default story 0 .empty cell.lines).map Evaluation.outcome,
            story.items.contents (render .default story .start .empty).summary.held)) =
      some (fogOutcomes, []) := by decide +kernel
  obtain ⟨story, hs, hcell⟩ := Option.bind_eq_some_iff.mp hread
  obtain ⟨cell, hc, hparts⟩ := Option.map_eq_some_iff.mp hcell
  obtain ⟨houtcomes, hcontents⟩ := Prod.mk.inj hparts
  have hr := Source.toOption_eq_some_iff.mp hs
  have hsettings : Settings.default.Unbroken := ⟨by decide, by decide, by decide, by decide⟩
  obtain ⟨hbody, hpage⟩ := spacing_of_render .default
  obtain ⟨ss, hss, happart, htext⟩ := hbody story .start cell .empty hc
  refine ⟨story, cell, hr, hc, hsettings, ⟨ss, hss.trans houtcomes, happart, ?_⟩,
    hpage hsettings .epoch fogSource story hr .start .empty⟩
  rw [htext, inventoryActs, hcontents]
  rfl

end Gamebook.Page
