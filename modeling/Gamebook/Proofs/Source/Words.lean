/-
# What is kept of a line

Cutting a comment and trimming take characters away at the ends of a line and nothing
in its midst, so a cleaned line is a piece of the line.  Words are cut at single spaces
and joined with them again, so that the text of the words behind a point is a piece of
the cleaned line (`toList_textOf_isInfix`).  What a line holds nowhere no piece of it
holds.  The other way round, words that are joined are cut where they were joined, and a
text behind them into its own words (`words_unwords_concat`).

A text is `Tidy` if nothing in it would be read as a comment or a line end and trimming
would leave it as it is.  Titles, labels, descriptions and texts come from lines by these
steps, and so they are tidy (`tidy_clean`, `Tidy.textOf`); and tidy words make a tidy line
(`tidy_unwords`).
-/
import Gamebook.Source.Words
import Mathlib.Data.List.DropRight

namespace Gamebook.Source

/-! ## Trimming -/

/-- Neither end is a character that is trimmed. -/
structure Trimmed (cs : List Char) : Prop where
  head : ∀ c, cs.head? = some c → isMargin c = false
  last : ∀ c, cs.getLast? = some c → isMargin c = false

theorem trim_eq_rdropWhile (cs : List Char) :
    trim cs = (cs.dropWhile isMargin).rdropWhile isMargin := rfl

theorem trim_isPrefix (cs : List Char) : trim cs <+: cs.dropWhile isMargin :=
  List.rdropWhile_prefix _ _

theorem trim_isInfix (cs : List Char) : trim cs <:+: cs :=
  (trim_isPrefix cs).isInfix.trans (List.dropWhile_suffix _).isInfix

theorem not_isMargin_head_dropWhile {cs : List Char} {c : Char}
    (h : (cs.dropWhile isMargin).head? = some c) : isMargin c = false := by
  have hstop := List.head?_dropWhile_not isMargin cs
  rw [h] at hstop
  exact hstop

theorem trimmed_trim (cs : List Char) : Trimmed (trim cs) := by
  constructor
  · intro c hc
    obtain ⟨behind, hbehind⟩ := trim_isPrefix cs
    have hhead : (cs.dropWhile isMargin).head? = some c := by
      rw [← hbehind, List.head?_append, hc]
      rfl
    exact not_isMargin_head_dropWhile hhead
  · intro c hc
    rw [trim, List.getLast?_reverse] at hc
    exact not_isMargin_head_dropWhile hc

/-- A trimmed text has nothing left to trim. -/
theorem Trimmed.trim_eq {cs : List Char} (h : Trimmed cs) : trim cs = cs := by
  have hhead : cs.dropWhile isMargin = cs := by
    cases cs with
    | nil => rfl
    | cons c cs => exact List.dropWhile_cons_of_neg (by simp [h.head c rfl])
  have hlast : cs.rdropWhile isMargin = cs := by
    refine List.rdropWhile_eq_self_iff.mpr fun hne => ?_
    rw [h.last _ (List.getLast?_eq_some_getLast hne)]
    exact Bool.false_ne_true
  rw [trim_eq_rdropWhile, hhead, hlast]

/-! ## Cleaning -/

theorem clean_isInfix (raw : List Char) : clean raw <:+: raw :=
  (trim_isInfix _).trans (List.takeWhile_prefix _).isInfix

theorem comment_not_mem_clean (raw : List Char) : '#' ∉ clean raw := by
  intro h
  have hfront := (trim_isInfix _).subset h
  simpa using List.mem_takeWhile_imp hfront

theorem trimmed_clean (raw : List Char) : Trimmed (clean raw) := trimmed_trim _

theorem clean_of_not_mem {line : List Char} (h : '#' ∉ line) : clean line = trim line := by
  have hall : line.takeWhile (fun c => c != '#') = line := by
    refine List.takeWhile_eq_self_iff.mpr fun c hc => ?_
    exact bne_iff_ne.mpr fun e => h (e ▸ hc)
  rw [clean, hall]

/-! ## Words -/

theorem unwords_cons {word : List Char} {ws : List (List Char)} (h : ws ≠ []) :
    unwords (word :: ws) = word ++ ' ' :: unwords ws := by
  obtain ⟨next, rest, rfl⟩ := List.exists_cons_of_ne_nil h
  rfl

theorem unwords_ne_nil {ws : List (List Char)} (hne : ws ≠ []) (h : ∀ word ∈ ws, word ≠ []) :
    unwords ws ≠ [] := by
  obtain ⟨word, rest, rfl⟩ := List.exists_cons_of_ne_nil hne
  have hword := h word List.mem_cons_self
  cases rest <;> simp [unwords, hword]

theorem words_ne_nil (line : List Char) : words line ≠ [] := by
  cases line with
  | nil => exact List.cons_ne_nil _ _
  | cons c cs =>
      rw [words]
      split
      · exact List.cons_ne_nil _ _
      · cases words cs <;> exact List.cons_ne_nil _ _

/-- A character that is no space goes to the first word of those behind it. -/
theorem words_cons {c : Char} (hc : c ≠ ' ') (cs : List Char) :
    ∃ word rest, words cs = word :: rest ∧ words (c :: cs) = (c :: word) :: rest := by
  obtain ⟨word, rest, hwords⟩ := List.exists_cons_of_ne_nil (words_ne_nil cs)
  exact ⟨word, rest, hwords, by rw [words, if_neg hc, hwords]⟩

/-- Joining the words of a line gives it back, however many spaces it has in a row. -/
theorem unwords_words (line : List Char) : unwords (words line) = line := by
  induction line with
  | nil => rfl
  | cons c cs ih =>
      by_cases hc : c = ' '
      · rw [words, if_pos hc, unwords_cons (words_ne_nil cs), ih, hc]
        rfl
      · obtain ⟨word, rest, hwords, hcons⟩ := words_cons hc cs
        rw [hcons, ← ih, hwords]
        cases rest <;> rfl

theorem space_not_mem_of_mem_words {line word : List Char} (h : word ∈ words line) :
    ' ' ∉ word := by
  induction line generalizing word with
  | nil =>
      rw [List.mem_singleton.mp h]
      exact List.not_mem_nil
  | cons c cs ih =>
      by_cases hc : c = ' '
      · rw [words, if_pos hc] at h
        rcases List.mem_cons.mp h with rfl | h
        · exact List.not_mem_nil
        · exact ih h
      · obtain ⟨first, rest, hwords, hcons⟩ := words_cons hc cs
        rw [hwords] at ih
        rw [hcons] at h
        rcases List.mem_cons.mp h with rfl | h
        · simpa using ⟨Ne.symm hc, ih List.mem_cons_self⟩
        · exact ih (List.mem_cons_of_mem _ h)

theorem words_append_space {word : List Char} (h : ' ' ∉ word) (cs : List Char) :
    words (word ++ ' ' :: cs) = word :: words cs := by
  induction word with
  | nil => rw [List.nil_append, words, if_pos rfl]
  | cons c word ih =>
      rw [List.mem_cons, not_or] at h
      rw [List.cons_append, words, if_neg (Ne.symm h.1), ih h.2]

theorem words_of_not_mem {word : List Char} (h : ' ' ∉ word) : words word = [word] := by
  induction word with
  | nil => rfl
  | cons c word ih =>
      rw [List.mem_cons, not_or] at h
      rw [words, if_neg (Ne.symm h.1), ih h.2]

/-- Words joined with a text behind them are split into the words and those of the text. -/
theorem words_unwords_concat {ws : List (List Char)} (h : ∀ word ∈ ws, ' ' ∉ word)
    (text : List Char) : words (unwords (ws ++ [text])) = ws ++ words text := by
  induction ws with
  | nil => rfl
  | cons word ws ih =>
      rw [List.cons_append, unwords_cons (List.concat_ne_nil _ _),
        words_append_space (h word List.mem_cons_self),
        ih fun other hother => h other (List.mem_cons_of_mem _ hother), List.cons_append]

theorem words_unwords {ws : List (List Char)} (hne : ws ≠ []) (h : ∀ word ∈ ws, ' ' ∉ word) :
    words (unwords ws) = ws := by
  obtain ⟨front, word, rfl⟩ := (List.eq_nil_or_concat ws).resolve_left hne
  rw [List.concat_eq_append] at h ⊢
  rw [words_unwords_concat fun other hother => h other (List.mem_append_left _ hother),
    words_of_not_mem (h word (List.mem_append_right _ List.mem_cons_self))]

/-- The words in front of a point take a space each, and those behind it follow. -/
theorem unwords_append (front : List (List Char)) {rest : List (List Char)} (h : rest ≠ []) :
    unwords (front ++ rest) = front.flatMap (· ++ [' ']) ++ unwords rest := by
  induction front with
  | nil => rfl
  | cons word front ih =>
      rw [List.cons_append, unwords_cons (List.append_ne_nil_of_right_ne_nil _ h), ih]
      simp

/-- The words behind a point make up the end of the line. -/
theorem unwords_isSuffix {rest ws : List (List Char)} (h : rest <:+ ws) :
    unwords rest <:+ unwords ws := by
  obtain ⟨front, rfl⟩ := h
  by_cases hrest : rest = []
  · rw [hrest]
    exact List.nil_suffix
  · rw [unwords_append front hrest]
    exact List.suffix_append _ _

theorem toList_textOf (ws : List (List Char)) : (textOf ws).toList = trim (unwords ws) :=
  String.toList_ofList

/-- A text is a piece of the line whose last words it is made of. -/
theorem toList_textOf_isInfix {rest : List (List Char)} {line : List Char}
    (h : rest <:+ words line) : (textOf rest).toList <:+: line := by
  rw [toList_textOf]
  refine (trim_isInfix _).trans ?_
  have hend := unwords_isSuffix h
  rw [unwords_words] at hend
  exact hend.isInfix

/-- All the words of a trimmed line make up the line. -/
theorem textOf_words {line : List Char} (h : Trimmed line) :
    textOf (words line) = String.ofList line := by
  rw [textOf, unwords_words, h.trim_eq]

/-! ## Tidy texts -/

/-- Nothing in the text begins a comment or ends a line, and there is nothing to trim. -/
structure Tidy (cs : List Char) : Prop where
  no_comment : '#' ∉ cs
  no_newline : '\n' ∉ cs
  trimmed : Trimmed cs

theorem tidy_nil : Tidy [] :=
  ⟨List.not_mem_nil, List.not_mem_nil, ⟨nofun, nofun⟩⟩

theorem tidy_clean {raw : List Char} (h : '\n' ∉ raw) : Tidy (clean raw) where
  no_comment := comment_not_mem_clean raw
  no_newline := fun hmem => h ((clean_isInfix raw).subset hmem)
  trimmed := trimmed_clean raw

theorem Tidy.clean_eq {line : List Char} (h : Tidy line) : clean line = line := by
  rw [clean_of_not_mem h.no_comment, h.trimmed.trim_eq]

theorem tidy_iff {line : List Char} : Tidy line ↔ clean line = line ∧ '\n' ∉ line := by
  constructor
  · exact fun h => ⟨h.clean_eq, h.no_newline⟩
  · rintro ⟨hclean, hnewline⟩
    exact hclean ▸ tidy_clean hnewline

instance (line : List Char) : Decidable (Tidy line) := decidable_of_iff _ tidy_iff.symm

theorem Tidy.textOf {line : List Char} (h : Tidy line) {rest : List (List Char)}
    (hrest : rest <:+ words line) : Tidy (textOf rest).toList where
  no_comment := fun hmem => h.no_comment ((toList_textOf_isInfix hrest).subset hmem)
  no_newline := fun hmem => h.no_newline ((toList_textOf_isInfix hrest).subset hmem)
  trimmed := by
    rw [toList_textOf]
    exact trimmed_trim _

theorem Tidy.append_space {word line : List Char} (hword : Tidy word) (hwordne : word ≠ [])
    (hline : Tidy line) (hlinene : line ≠ []) : Tidy (word ++ ' ' :: line) where
  no_comment := by simpa using ⟨hword.no_comment, hline.no_comment⟩
  no_newline := by simpa using ⟨hword.no_newline, hline.no_newline⟩
  trimmed := by
    constructor
    · intro c hc
      rw [List.head?_append_of_ne_nil _ hwordne] at hc
      exact hword.trimmed.head c hc
    · intro c hc
      rw [List.getLast?_append_of_ne_nil _ (List.cons_ne_nil _ _),
        List.getLast?_cons_of_ne_nil hlinene] at hc
      exact hline.trimmed.last c hc

/-- Nothing is cut or trimmed of tidy words that are joined, if none of them is empty. -/
theorem tidy_unwords {ws : List (List Char)} (h : ∀ word ∈ ws, word ≠ [] ∧ Tidy word) :
    Tidy (unwords ws) := by
  induction ws with
  | nil => exact tidy_nil
  | cons word ws ih =>
      obtain ⟨hne, hword⟩ := h word List.mem_cons_self
      by_cases hws : ws = []
      · rw [hws]
        exact hword
      · have hbehind : ∀ other ∈ ws, other ≠ [] ∧ Tidy other :=
          fun other hother => h other (List.mem_cons_of_mem _ hother)
        rw [unwords_cons hws]
        exact hword.append_space hne (ih hbehind)
          (unwords_ne_nil hws fun other hother => (hbehind other hother).1)

/-- No line of a source has a line end in it. -/
theorem newline_not_mem_of_mem_splitLines {cs line : List Char} (h : line ∈ splitLines cs) :
    '\n' ∉ line := by
  induction cs generalizing line with
  | nil => exact absurd h List.not_mem_nil
  | cons c cs ih =>
      rw [splitLines] at h
      split at h
      next =>
        rcases List.mem_cons.mp h with rfl | h
        · exact List.not_mem_nil
        · exact ih h
      next hc =>
        split at h
        next => exact ih h
        next =>
          -- the character goes to the first of the lines that follow
          cases hlines : splitLines cs with
          | nil =>
              rw [hlines] at h
              obtain rfl := List.mem_singleton.mp h
              simpa using Ne.symm hc
          | cons first rest =>
              rw [hlines] at h ih
              rcases List.mem_cons.mp h with rfl | h
              · simpa using ⟨Ne.symm hc, ih List.mem_cons_self⟩
              · exact ih (List.mem_cons_of_mem _ h)

end Gamebook.Source
