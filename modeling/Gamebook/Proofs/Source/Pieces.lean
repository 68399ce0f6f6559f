/-
# What cutting and trimming leave of a line

Of a line the part in front of its first comment sign is kept (`InFront`), and of that
everything between the margins at its ends (`TrimsTo`).  Both say at which characters a line
is cut, and leave no choice: a text that is cut so is the one that trimming or cleaning gives
(`trim_eq_iff`, `clean_eq_iff`).

Words are the pieces between single spaces, and the only ones that give the line when they
are joined (`words_eq_iff`).  So a text that is made of the words behind a point is what is
left of the line behind as many words and as many spaces, trimmed, with all other spaces it
had.

Main statement: `cut_and_rejoined`.
-/
import Gamebook.Proofs.Source.Layout
import Gamebook.Proofs.Source.Words

namespace Gamebook.Source

/-! ## Margins -/

/-- What is kept has no margin at its ends, and only margins are gone. -/
structure TrimsTo (cs kept : List Char) : Prop where
  trimmed : Trimmed kept
  margins : ∃ left right, cs = left ++ kept ++ right ∧
    (∀ c ∈ left, isMargin c = true) ∧ ∀ c ∈ right, isMargin c = true

theorem trimsTo_trim (cs : List Char) : TrimsTo cs (trim cs) where
  trimmed := trimmed_trim cs
  margins := by
    refine ⟨cs.takeWhile isMargin, (cs.dropWhile isMargin).rtakeWhile isMargin, ?_,
      fun _ => List.mem_takeWhile_imp, fun _ => List.mem_rtakeWhile_imp⟩
    rw [trim_eq_rdropWhile, List.append_assoc, List.rdropWhile_append_rtakeWhile,
      List.takeWhile_append_dropWhile]

theorem trim_append_left {left : List Char} (h : ∀ c ∈ left, isMargin c = true)
    (cs : List Char) : trim (left ++ cs) = trim cs := by
  rw [trim, List.dropWhile_append_of_pos h, trim]

theorem trim_append_right {right : List Char} (h : ∀ c ∈ right, isMargin c = true)
    (cs : List Char) : trim (cs ++ right) = trim cs := by
  induction right using List.reverseRecOn with
  | nil => rw [List.append_nil]
  | append_singleton right c ih =>
      obtain ⟨hright, hc⟩ := List.forall_mem_append.mp h
      rw [← List.append_assoc, trim_concat (hc c List.mem_cons_self), ih hright]

/-- Trimming is told by what it leaves and what it takes. -/
theorem trim_eq_iff {cs kept : List Char} : trim cs = kept ↔ TrimsTo cs kept := by
  constructor
  · rintro rfl
    exact trimsTo_trim cs
  · rintro ⟨htrimmed, left, right, rfl, hleft, hright⟩
    rw [trim_append_right hright, trim_append_left hleft, htrimmed.trim_eq]

/-! ## Comments -/

/-- What of a line is in front of its first comment sign, which is all of it if there is none. -/
inductive InFront : List Char → List Char → Prop
  | whole {line : List Char} : '#' ∉ line → InFront line line
  | cut (front comment : List Char) : '#' ∉ front → InFront (front ++ '#' :: comment) front

theorem exists_inFront (line : List Char) : ∃ front, InFront line front := by
  by_cases h : '#' ∈ line
  · obtain ⟨front, comment, rfl, hfront⟩ := List.eq_append_cons_of_mem h
    exact ⟨front, .cut front comment hfront⟩
  · exact ⟨line, .whole h⟩

theorem InFront.clean_eq {line front : List Char} (h : InFront line front) :
    clean line = trim front := by
  cases h with
  | whole h => exact clean_of_not_mem h
  | cut _ comment h => rw [clean_append_comment, clean_of_not_mem h]

/-- Cleaning is told by what it leaves and what it takes. -/
theorem clean_eq_iff {line kept : List Char} :
    clean line = kept ↔ ∃ front, InFront line front ∧ TrimsTo front kept := by
  constructor
  · intro hkept
    obtain ⟨front, hfront⟩ := exists_inFront line
    exact ⟨front, hfront, trim_eq_iff.mp (hfront.clean_eq.symm.trans hkept)⟩
  · rintro ⟨front, hfront, hkept⟩
    exact hfront.clean_eq.trans (trim_eq_iff.mpr hkept)

/-! ## Words -/

/-- Splitting is told by what it gives: one list of words without spaces makes up a line. -/
theorem words_eq_iff {line : List Char} {ws : List (List Char)} :
    words line = ws ↔ ws ≠ [] ∧ (∀ word ∈ ws, ' ' ∉ word) ∧ unwords ws = line := by
  constructor
  · rintro rfl
    exact ⟨words_ne_nil line, fun _ => space_not_mem_of_mem_words, unwords_words line⟩
  · rintro ⟨hne, hspaceless, rfl⟩
    exact words_unwords hne hspaceless

/-- No margin is a word of its own at the front of a trimmed line. -/
theorem Trimmed.exists_first_word {line : List Char} (h : Trimmed line) (hne : line ≠ []) :
    ∃ word rest, words line = word :: rest ∧ word ≠ [] := by
  obtain ⟨c, cs, rfl⟩ := List.exists_cons_of_ne_nil hne
  have hc : c ≠ ' ' := by
    rintro rfl
    exact absurd (h.head ' ' rfl) (by decide)
  obtain ⟨word, rest, -, hcons⟩ := words_cons hc cs
  exact ⟨c :: word, rest, hcons, List.cons_ne_nil _ _⟩

/-! ## A line in pieces -/

/-- What is kept of a line: a piece of it, cut at the comment and at the margins and not to be cut
again, whose first word has characters in it. -/
structure Cleaned (line kept : List Char) : Prop where
  piece : kept <:+: line
  no_comment : '#' ∉ kept
  cut : ∃ front, InFront line front ∧ TrimsTo front kept
  again : clean kept = kept
  first_word : kept ≠ [] → ∃ word rest, words kept = word :: rest ∧ word ≠ []

theorem cleaned_clean (line : List Char) : Cleaned line (clean line) where
  piece := clean_isInfix line
  no_comment := comment_not_mem_clean line
  cut := clean_eq_iff.mp rfl
  again := by rw [clean_of_not_mem (comment_not_mem_clean line), (trimmed_clean line).trim_eq]
  first_word := (trimmed_clean line).exists_first_word

/-- The words of a line, joined again from the first one or from a later one: behind some words
and a space for each the rest of the line follows, and is what the other words make. -/
structure Rejoined (line : List Char) (ws : List (List Char)) : Prop where
  joined : unwords ws = line
  text : ∀ i < ws.length, ∃ behind, line = (ws.take i).flatMap (· ++ [' ']) ++ behind ∧
    textOf (ws.drop i) = String.ofList (trim behind)
  text_past : ∀ i, ws.length ≤ i → textOf (ws.drop i) = ""

theorem rejoined_words (line : List Char) : Rejoined line (words line) where
  joined := unwords_words line
  text := by
    intro i hi
    have hrest : (words line).drop i ≠ [] := fun h => by
      rw [List.drop_eq_nil_iff] at h
      omega
    refine ⟨unwords ((words line).drop i), ?_, rfl⟩
    rw [← unwords_append _ hrest, List.take_append_drop, unwords_words]
  text_past := by
    intro i hi
    rw [List.drop_eq_nil_of_le hi]
    rfl

/-- Nothing of a line is lost but its comment and its margins: what is kept is the one piece of it
that is cut there, and its words are the ones that make it up again, from the first on or from a
later one. -/
theorem cut_and_rejoined :
    (∀ line : List Char, Cleaned line (clean line)) ∧
    (∀ line kept : List Char,
      clean line = kept ↔ ∃ front, InFront line front ∧ TrimsTo front kept) ∧
    (∀ line : List Char, Rejoined line (words line)) ∧
    ∀ (line : List Char) (ws : List (List Char)),
      words line = ws ↔ ws ≠ [] ∧ (∀ word ∈ ws, ' ' ∉ word) ∧ unwords ws = line :=
  ⟨cleaned_clean, fun _ _ => clean_eq_iff, rejoined_words, fun _ _ => words_eq_iff⟩

/-- Margins of four kinds, one of them in the midst, spaces in a row, and a comment sign in the
comment. -/
def raggedLine : List Char :=
  "\u00a0 ?key  two\u0085spaces \t".toList ++ '#' :: " said # twice".toList

theorem cut_and_rejoined_ragged :
    clean raggedLine = "?key  two\u0085spaces".toList ∧
      clean (clean raggedLine) = clean raggedLine ∧
      words (clean raggedLine) = ["?key".toList, [], "two\u0085spaces".toList] ∧
      textOf ((words (clean raggedLine)).drop 1) = "two\u0085spaces" ∧
      textOf ((words (clean raggedLine)).drop 3) = "" := by
  obtain ⟨hcleaned, hclean, hrejoined, hwords⟩ := cut_and_rejoined
  have hfront : InFront raggedLine "\u00a0 ?key  two\u0085spaces \t".toList :=
    .cut _ " said # twice".toList (by decide)
  have htidy : Tidy "?key  two\u0085spaces".toList := by decide +kernel
  have hkept : clean raggedLine = "?key  two\u0085spaces".toList :=
    (hclean _ _).mpr ⟨_, hfront, htidy.trimmed, "\u00a0 ".toList, " \t".toList, by decide,
      List.all_eq_true.mp (by decide), List.all_eq_true.mp (by decide)⟩
  have hsplit : words (clean raggedLine) = ["?key".toList, [], "two\u0085spaces".toList] := by
    rw [hkept]
    exact (hwords _ _).mpr (by decide)
  have hrest := hrejoined (clean raggedLine)
  rw [hsplit] at hrest
  obtain ⟨behind, hline, htext⟩ := hrest.text 1 (by decide)
  have hparts : "?key ".toList ++ " two\u0085spaces".toList = "?key ".toList ++ behind :=
    hkept.symm.trans hline
  have hbehind : behind = " two\u0085spaces".toList := (List.append_cancel_left hparts).symm
  refine ⟨hkept, (hcleaned raggedLine).again, hsplit, ?_, ?_⟩
  · rw [hsplit, htext, hbehind]
    decide
  · rw [hsplit]
    exact hrest.text_past 3 (by decide)

end Gamebook.Source
