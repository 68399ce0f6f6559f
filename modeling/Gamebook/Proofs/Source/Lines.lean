/-
# The lines of a text and of its parts

A text that goes on behind a line feed has the lines in front of it and then those
behind: no line reaches across (`splitLines_append_newline`).  So the first lines of
a text are again the lines of a text, the part up to the last of them
(`splitLines_firstLines`).

A line feed put behind a text closes its last line or opens an empty one, and takes
a carriage return at the end along.  None of this is left once a line is cleaned
(`keptOf_splitLines_newline`).
-/
import Gamebook.Proofs.Source.Outline

namespace Gamebook.Source

/-! ## Text behind a line feed -/

theorem splitLines_newline (cs : List Char) : splitLines ('\n' :: cs) = [] :: splitLines cs := by
  rw [splitLines, if_pos rfl]

theorem splitLines_cons {c : Char} (hc : c ≠ '\n') {cs : List Char}
    (hcr : ¬(c = '\r' ∧ cs.head? = some '\n')) :
    splitLines (c :: cs) =
      (c :: (splitLines cs).headD []) :: (splitLines cs).tail := by
  rw [splitLines, if_neg hc, if_neg hcr]
  cases splitLines cs <;> rfl

theorem splitLines_return {cs : List Char} (h : cs.head? = some '\n') :
    splitLines ('\r' :: cs) = splitLines cs := by
  rw [splitLines, if_neg (by decide), if_pos ⟨rfl, h⟩]

theorem splitLines_eq_nil_iff {cs : List Char} : splitLines cs = [] ↔ cs = [] := by
  constructor
  · intro h
    induction cs with
    | nil => rfl
    | cons c cs ih =>
        by_cases hc : c = '\n'
        · rw [hc, splitLines_newline] at h
          exact absurd h (List.cons_ne_nil _ _)
        · by_cases hcr : c = '\r' ∧ cs.head? = some '\n'
          · rw [hcr.1, splitLines_return hcr.2] at h
            rw [ih h] at hcr
            exact absurd hcr.2 (by simp)
          · rw [splitLines_cons hc hcr] at h
            exact absurd h (List.cons_ne_nil _ _)
  · rintro rfl
    rfl

theorem head?_append_newline (cs ds : List Char) :
    (cs ++ '\n' :: ds).head? = (cs ++ ['\n']).head? := by
  cases cs <;> rfl

/-- No line reaches across a line feed. -/
theorem splitLines_append_newline (cs ds : List Char) :
    splitLines (cs ++ '\n' :: ds) = splitLines (cs ++ ['\n']) ++ splitLines ds := by
  induction cs with
  | nil => exact splitLines_newline ds
  | cons c cs ih =>
      rw [List.cons_append, List.cons_append]
      by_cases hc : c = '\n'
      · rw [hc, splitLines_newline, splitLines_newline, ih, List.cons_append]
      · by_cases hcr : c = '\r' ∧ (cs ++ ['\n']).head? = some '\n'
        · have hcr' : (cs ++ '\n' :: ds).head? = some '\n' := head?_append_newline cs ds ▸ hcr.2
          rw [hcr.1, splitLines_return hcr', splitLines_return hcr.2, ih]
        · have hcr' : ¬(c = '\r' ∧ (cs ++ '\n' :: ds).head? = some '\n') :=
            head?_append_newline cs ds ▸ hcr
          have hne : splitLines (cs ++ ['\n']) ≠ [] := by simp [splitLines_eq_nil_iff]
          obtain ⟨line, lines, hlines⟩ := List.exists_cons_of_ne_nil hne
          rw [splitLines_cons hc hcr', splitLines_cons hc hcr, ih, hlines]
          rfl

/-! ## The first lines of a text -/

/-- The part of a text that its first lines make up, line ends and all. -/
def firstLines : Nat → List Char → List Char
  | 0, _ => []
  | _ + 1, [] => []
  | k + 1, c :: cs => c :: firstLines (if c = '\n' then k else k + 1) cs

theorem head?_firstLines (k : Nat) (cs : List Char) :
    (firstLines (k + 1) cs).head? = cs.head? := by
  cases cs <;> rfl

theorem splitLines_firstLines (cs : List Char) :
    ∀ k, splitLines (firstLines k cs) = (splitLines cs).take k := by
  induction cs with
  | nil => intro k; cases k <;> rfl
  | cons c cs ih =>
      intro k
      cases k with
      | zero => rfl
      | succ k =>
          rw [firstLines]
          by_cases hc : c = '\n'
          · rw [if_pos hc, hc, splitLines_newline, splitLines_newline, ih, List.take_succ_cons]
          · rw [if_neg hc]
            by_cases hcr : c = '\r' ∧ cs.head? = some '\n'
            · have hcr' : (firstLines (k + 1) cs).head? = some '\n' :=
                (head?_firstLines k cs).trans hcr.2
              rw [hcr.1, splitLines_return hcr', splitLines_return hcr.2, ih]
            · have hcr' : ¬(c = '\r' ∧ (firstLines (k + 1) cs).head? = some '\n') :=
                head?_firstLines k cs ▸ hcr
              rw [splitLines_cons hc hcr', splitLines_cons hc hcr, ih, List.take_succ_cons]
              cases splitLines cs with
              | nil => rw [List.take_nil, List.tail_nil, List.take_nil]
              | cons line lines => rfl

/-! ## A line feed at the end -/

/-- What a line feed at the end makes of lines: the last one stays as it is or loses a carriage
return, or there is an empty one more. -/
inductive Closes : List (List Char) → List (List Char) → Prop
  | opens : Closes [] [[]]
  | keeps (line : List Char) : Closes [line] [line]
  | strips (line : List Char) : Closes [line ++ ['\r']] [line]
  | cons (line : List Char) {lines lines' : List (List Char)} :
      Closes lines lines' → Closes (line :: lines) (line :: lines')

/-- A further character in front of the first line makes no difference. -/
theorem Closes.push {lines lines' : List (List Char)} (h : Closes lines lines') (c : Char) :
    Closes ((c :: lines.headD []) :: lines.tail) ((c :: lines'.headD []) :: lines'.tail) := by
  cases h with
  | opens => exact .keeps [c]
  | keeps line => exact .keeps (c :: line)
  | strips line => exact .strips (c :: line)
  | cons line h => exact .cons (c :: line) h

theorem closes_splitLines (cs : List Char) :
    Closes (splitLines cs) (splitLines (cs ++ ['\n'])) := by
  induction cs with
  | nil => exact .opens
  | cons c cs ih =>
      rw [List.cons_append]
      by_cases hc : c = '\n'
      · rw [hc, splitLines_newline, splitLines_newline]
        exact .cons [] ih
      · by_cases hcr : c = '\r' ∧ (cs ++ ['\n']).head? = some '\n'
        · rw [hcr.1, splitLines_return hcr.2]
          cases cs with
          | nil => exact .strips []
          | cons d ds =>
              have hd : (d :: ds).head? = some '\n' := hcr.2
              rw [splitLines_return hd]
              exact ih
        · have hcr' : ¬(c = '\r' ∧ cs.head? = some '\n') := by
            rintro ⟨rfl, h⟩
            exact hcr ⟨rfl, by rw [List.head?_append, h]; rfl⟩
          rw [splitLines_cons hc hcr, splitLines_cons hc hcr']
          exact ih.push c

theorem trim_concat {c : Char} (hc : isMargin c = true) (cs : List Char) :
    trim (cs ++ [c]) = trim cs := by
  rw [trim, trim, List.dropWhile_append]
  cases h : cs.dropWhile isMargin with
  | nil => simp [hc]
  | cons d ds => simp [hc]

/-- No margin begins a comment. -/
theorem bne_comment_of_isMargin {c : Char} (hc : isMargin c = true) : (c != '#') = true := by
  rw [bne_iff_ne]
  rintro rfl
  exact absurd hc (by decide)

/-- A margin behind a line is gone once it is cleaned, also behind a comment. -/
theorem clean_concat {c : Char} (hc : isMargin c = true) (line : List Char) :
    clean (line ++ [c]) = clean line := by
  have hcomment := bne_comment_of_isMargin hc
  rw [clean, clean, List.takeWhile_append]
  by_cases h : (line.takeWhile fun c => c != '#').length = line.length
  · rw [if_pos h, List.Sublist.eq_of_length (List.takeWhile_sublist _) h]
    simp only [List.takeWhile_cons, hcomment, if_true, List.takeWhile_nil]
    exact trim_concat hc line
  · rw [if_neg h]

theorem Closes.keptOf_eq {lines lines' : List (List Char)} (h : Closes lines lines') :
    keptOf lines' = keptOf lines := by
  induction h with
  | opens => rfl
  | keeps line => rfl
  | strips line => rw [keptOf, keptOf, List.map_singleton, List.map_singleton,
      clean_concat (by decide)]
  | @cons line lines lines' _ ih =>
      cases hb : (clean line).isEmpty with
      | true => rw [keptOf_cons_of_blank hb, keptOf_cons_of_blank hb, ih]
      | false => rw [keptOf_cons hb, keptOf_cons hb, ih]

/-- A line feed at the end changes no line that is read. -/
theorem keptOf_splitLines_newline (cs : List Char) :
    keptOf (splitLines (cs ++ ['\n'])) = keptOf (splitLines cs) := (closes_splitLines cs).keptOf_eq

end Gamebook.Source
