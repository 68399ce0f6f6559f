/-
# Layout says nothing

A source is read for the lines that are left when comments, margins and blank lines are
gone.  Two sources with the same such lines say the same: both compile, to stories of
the same content, or both fail, for the same reason and at the same one of these lines,
wherever it stands in each (`readAlike_of_keptLines_eq`).

An `Edit` changes the layout of a text: a blank line more, a comment or blanks behind a
line, blanks in front of one, a carriage return in front of a line feed.  Whatever stands
around it, an edit is one of a single line, because no line reaches across a line feed
(`keptIn_congr`), and there it is gone once the line is cleaned (`Edit.keptIn_eq`).  So
any number of edits, made or taken back, leaves the same lines.

Main statement: `readAlike_of_layout`.
-/
import Gamebook.Proofs.Registry.Bits
import Gamebook.Proofs.Source.Fault
import Mathlib.Data.List.Induction
import Mathlib.Logic.Relation

namespace Gamebook.Source

/-! ## The lines that are kept -/

def keptIn (cs : List Char) : List (List Char) := keptOf (splitLines cs)

theorem keptOf_singleton_congr {line line' : List Char} (h : clean line = clean line') :
    keptOf [line] = keptOf [line'] := by
  rw [keptOf, keptOf, List.map_singleton, List.map_singleton, h]

theorem keptIn_append_newline (cs ds : List Char) :
    keptIn (cs ++ '\n' :: ds) = keptIn cs ++ keptIn ds := by
  rw [keptIn, splitLines_append_newline, keptOf_append, keptOf_splitLines_newline]
  rfl

theorem splitLines_of_not_mem {cs : List Char} (h : '\n' ∉ cs) (hne : cs ≠ []) :
    splitLines cs = [cs] := by
  induction cs with
  | nil => exact absurd rfl hne
  | cons c cs ih =>
      have hc : c ≠ '\n' := fun e => h (e ▸ List.mem_cons_self)
      have hcs : '\n' ∉ cs := fun hm => h (List.mem_cons_of_mem _ hm)
      have hcr : ¬(c = '\r' ∧ cs.head? = some '\n') := fun hr => hcs (List.mem_of_head? hr.2)
      rw [splitLines_cons hc hcr]
      by_cases hnil : cs = []
      · rw [hnil]
        rfl
      · rw [ih hcs hnil]
        rfl

/-- A text without a line feed is one line. -/
theorem keptIn_of_not_mem {cs : List Char} (h : '\n' ∉ cs) : keptIn cs = keptOf [cs] := by
  by_cases hne : cs = []
  · rw [hne]
    rfl
  · rw [keptIn, splitLines_of_not_mem h hne]

/-- Of what stands in front only the line matters that it ends in. -/
theorem keptIn_congr {cs ds : List Char}
    (h : ∀ line, '\n' ∉ line → keptIn (line ++ cs) = keptIn (line ++ ds)) (front : List Char) :
    keptIn (front ++ cs) = keptIn (front ++ ds) := by
  -- by induction on the front, with the line that has begun
  suffices hline : ∀ line, '\n' ∉ line →
      keptIn (line ++ (front ++ cs)) = keptIn (line ++ (front ++ ds)) from hline [] List.not_mem_nil
  induction front with
  | nil => exact h
  | cons c front ih =>
      intro line hline
      by_cases hc : c = '\n'
      · have hrest := ih [] List.not_mem_nil
        rw [List.nil_append, List.nil_append] at hrest
        rw [hc, List.cons_append, List.cons_append, keptIn_append_newline, keptIn_append_newline,
          hrest]
      · have hlonger : '\n' ∉ line ++ [c] := by simp [hline, Ne.symm hc]
        have hrest := ih (line ++ [c]) hlonger
        rwa [List.append_assoc, List.append_assoc] at hrest

/-! ## Edits -/

/-- A line begins behind the text. -/
inductive LineStart : List Char → Prop
  | first : LineStart []
  | behind (cs : List Char) : LineStart (cs ++ ['\n'])

/-- A line ends in front of the text. -/
inductive LineEnd : List Char → Prop
  | last : LineEnd []
  | lineFeed (cs : List Char) : LineEnd ('\n' :: cs)
  | returnFeed (cs : List Char) : LineEnd ('\r' :: '\n' :: cs)

/-- A line of blanks, of a comment, or of both. -/
structure SaysNothing (line : List Char) : Prop where
  one_line : '\n' ∉ line
  blank : clean line = []

/-- What a change of layout puts into a text. -/
inductive Edit : List Char → List Char → Prop
  | lineAbove {front line behind : List Char} : LineStart front → SaysNothing line →
      Edit (front ++ behind) (front ++ (line ++ '\n' :: behind))
  | lineBelow {front line behind : List Char} : LineEnd behind → SaysNothing line →
      Edit (front ++ behind) (front ++ '\n' :: (line ++ behind))
  | comment {front words behind : List Char} : LineEnd behind → '\n' ∉ words →
      Edit (front ++ behind) (front ++ ('#' :: words ++ behind))
  | trailing {front blanks behind : List Char} : LineEnd behind →
      (∀ c ∈ blanks, isMargin c = true) → Edit (front ++ behind) (front ++ (blanks ++ behind))
  | indent {front blanks behind : List Char} : LineStart front →
      (∀ c ∈ blanks, isMargin c = true) → Edit (front ++ behind) (front ++ (blanks ++ behind))
  | returnFeed {front behind : List Char} :
      Edit (front ++ '\n' :: behind) (front ++ '\r' :: '\n' :: behind)

/-- Any number of edits, made or taken back. -/
def Relaid (a b : String) : Prop := Relation.EqvGen Edit a.toList b.toList

/-! ## An edit of one line -/

theorem clean_cons {c : Char} (hc : isMargin c = true) (line : List Char) :
    clean (c :: line) = clean line := by
  have hcomment := bne_comment_of_isMargin hc
  simp only [clean, trim, List.takeWhile_cons, hcomment, if_true, List.dropWhile_cons, hc]

theorem clean_append_comment (line words : List Char) :
    clean (line ++ '#' :: words) = clean line := by
  have hstop : ('#' :: words).takeWhile (fun c => c != '#') = [] :=
    List.takeWhile_cons_of_neg (by decide)
  rw [clean, clean, List.takeWhile_append, hstop]
  split
  next hall => rw [List.Sublist.eq_of_length (List.takeWhile_sublist _) hall, List.append_nil]
  next => rfl

/-- What follows the end of a line is read apart from it. -/
theorem LineEnd.exists_keptIn {behind : List Char} (h : LineEnd behind) :
    ∃ rest, ∀ line, '\n' ∉ line → keptIn (line ++ behind) = keptOf [line] ++ rest := by
  cases h with
  | last =>
      refine ⟨[], fun line hline => ?_⟩
      rw [List.append_nil, List.append_nil, keptIn_of_not_mem hline]
  | lineFeed cs =>
      refine ⟨keptIn cs, fun line hline => ?_⟩
      rw [keptIn_append_newline, keptIn_of_not_mem hline]
  | returnFeed cs =>
      refine ⟨keptIn cs, fun line hline => ?_⟩
      have hreturn : '\n' ∉ line ++ ['\r'] := by simp [hline]
      have hmoved : line ++ '\r' :: '\n' :: cs = (line ++ ['\r']) ++ '\n' :: cs := by simp
      rw [hmoved, keptIn_append_newline, keptIn_of_not_mem hreturn,
        keptOf_singleton_congr (clean_concat (by decide) line)]

theorem LineStart.keptIn_append {front : List Char} (h : LineStart front) (cs : List Char) :
    keptIn (front ++ cs) = keptIn front ++ keptIn cs := by
  cases h with
  | first => rfl
  | behind front =>
      have hempty : keptIn [] = [] := rfl
      rw [List.append_assoc, List.singleton_append, keptIn_append_newline, keptIn_append_newline,
        hempty, List.append_nil]

theorem SaysNothing.keptOf_eq {line : List Char} (h : SaysNothing line) : keptOf [line] = [] :=
  keptOf_singleton_congr (show clean line = clean [] from h.blank)

/-- A blank at the end of a line, which may be a line feed and so a blank line more. -/
theorem LineEnd.keptIn_cons {behind : List Char} (h : LineEnd behind) {c : Char}
    (hc : isMargin c = true) (front : List Char) :
    keptIn (front ++ c :: behind) = keptIn (front ++ behind) := by
  obtain ⟨rest, hrest⟩ := h.exists_keptIn
  refine keptIn_congr (fun line hline => ?_) front
  by_cases hfeed : c = '\n'
  · have hbehind : keptIn behind = rest := hrest [] List.not_mem_nil
    rw [hfeed, keptIn_append_newline, keptIn_of_not_mem hline, hbehind, hrest line hline]
  · have hlonger : '\n' ∉ line ++ [c] := by simp [hline, Ne.symm hfeed]
    have hmoved : line ++ c :: behind = (line ++ [c]) ++ behind := by simp
    rw [hmoved, hrest _ hlonger, hrest line hline, keptOf_singleton_congr (clean_concat hc line)]

/-- A blank at the beginning of a text. -/
theorem keptIn_cons {c : Char} (hc : isMargin c = true) (cs : List Char) :
    keptIn (c :: cs) = keptIn cs := by
  by_cases hfeed : c = '\n'
  · rw [hfeed]
    exact keptIn_append_newline [] cs
  · have hline : ∀ line, '\n' ∉ line → '\n' ∉ c :: line := fun line hline => by
      simp [hline, Ne.symm hfeed]
    by_cases hcs : '\n' ∈ cs
    · obtain ⟨line, rest, rfl, hfirst⟩ := List.eq_append_cons_of_mem hcs
      rw [← List.cons_append, keptIn_append_newline, keptIn_append_newline,
        keptIn_of_not_mem (hline line hfirst), keptIn_of_not_mem hfirst,
        keptOf_singleton_congr (clean_cons hc line)]
    · rw [keptIn_of_not_mem (hline cs hcs), keptIn_of_not_mem hcs,
        keptOf_singleton_congr (clean_cons hc cs)]

/-- An edit leaves the lines that are kept. -/
theorem Edit.keptIn_eq {cs ds : List Char} (h : Edit cs ds) : keptIn cs = keptIn ds := by
  cases h with
  | @lineAbove front line behind hstart hline =>
      rw [hstart.keptIn_append, hstart.keptIn_append, keptIn_append_newline,
        keptIn_of_not_mem hline.one_line, hline.keptOf_eq, List.nil_append]
  | @lineBelow front line behind hend hline =>
      obtain ⟨rest, hrest⟩ := hend.exists_keptIn
      refine keptIn_congr (fun first hfirst => ?_) front
      rw [keptIn_append_newline, hrest first hfirst, hrest line hline.one_line, hline.keptOf_eq,
        keptIn_of_not_mem hfirst, List.nil_append]
  | @comment front words behind hend hwords =>
      obtain ⟨rest, hrest⟩ := hend.exists_keptIn
      refine keptIn_congr (fun line hline => ?_) front
      have hlonger : '\n' ∉ line ++ '#' :: words := by simp [hline, hwords]
      rw [← List.append_assoc, hrest line hline, hrest _ hlonger,
        keptOf_singleton_congr (clean_append_comment line words)]
  | @trailing front blanks behind hend hblanks =>
      -- the last blank goes first, since it stands at the end of the line
      induction blanks using List.reverseRecOn with
      | nil => rfl
      | append_singleton blanks c ih =>
          rw [ih fun d hd => hblanks d (List.mem_append_left _ hd), List.append_assoc,
            ← List.append_assoc front, ← List.append_assoc front]
          exact (hend.keptIn_cons (hblanks c (List.mem_append_right _ List.mem_cons_self)) _).symm
  | @indent front blanks behind hstart hblanks =>
      rw [hstart.keptIn_append, hstart.keptIn_append]
      induction blanks with
      | nil => rfl
      | cons c blanks ih =>
          rw [ih fun d hd => hblanks d (List.mem_cons_of_mem _ hd), List.cons_append,
            keptIn_cons (hblanks c List.mem_cons_self)]
  | @returnFeed front behind =>
      have hreturn := LineEnd.last.keptIn_cons (c := '\r') (by decide) front
      have hmoved : front ++ '\r' :: '\n' :: behind = (front ++ ['\r']) ++ '\n' :: behind := by simp
      rw [hmoved, keptIn_append_newline, keptIn_append_newline, hreturn, List.append_nil]

theorem Relaid.keptLines_eq {a b : String} (h : Relaid a b) : keptLines a = keptLines b := by
  have hkept : ∀ cs ds, Relation.EqvGen Edit cs ds → keptIn cs = keptIn ds := by
    intro cs ds hedits
    induction hedits with
    | rel _ _ hedit => exact hedit.keptIn_eq
    | refl _ => rfl
    | symm _ _ _ ih => exact ih.symm
    | trans _ _ _ _ _ ih ih' => exact ih.trans ih'
  exact hkept _ _ h

/-! ## The other kind of line end -/

/-- A carriage return in front of every line feed. -/
def withReturns (cs : List Char) : List Char :=
  cs.flatMap fun c => if c = '\n' then ['\r', '\n'] else [c]

/-- To change all line ends is to change one after the other. -/
theorem relaid_withReturns (source : String) :
    Relaid source (String.ofList (withReturns source.toList)) := by
  rw [Relaid, String.toList_ofList]
  suffices hbehind : ∀ front,
      Relation.EqvGen Edit (front ++ source.toList) (front ++ withReturns source.toList) from
    hbehind []
  induction source.toList with
  | nil => exact fun front => .refl _
  | cons c cs ih =>
      intro front
      by_cases hc : c = '\n'
      · have hrest := ih (front ++ ['\r', '\n'])
        rw [List.append_assoc, List.append_assoc] at hrest
        rw [hc]
        exact .trans _ _ _ (.rel _ _ .returnFeed) hrest
      · have hrest := ih (front ++ [c])
        rw [List.append_assoc, List.append_assoc] at hrest
        simpa [withReturns, hc] using hrest

/-! ## Reading alike -/

/-- The numbers of those lines that are kept, where the first has the given number. -/
def numbersFrom (number : Nat) (raws : List (List Char)) : List Nat :=
  (raws.zipIdx number).filterMap fun p => if (clean p.1).isEmpty then none else some p.2

/-- The numbers, from 1 on, of the lines of a source that are kept. -/
def keptNumbers (source : String) : List Nat := numbersFrom 1 (splitLines source.toList)

/-- The same error at another line. -/
def CompileError.atLine (line : Nat) : CompileError → CompileError
  | unexpectedGlyph _ word => unexpectedGlyph line word
  | item _ fault => item line fault
  | unreadable fault => unreadable fault

/-- Two sources come to the same content, or to the same error at the same one of the lines that
are kept. -/
inductive ReadAlike (a b : String) :
    Except CompileError Story → Except CompileError Story → Prop
  | compiles {x y : Story} : x.sameContent y = true → ReadAlike a b (.ok x) (.ok y)
  | fails {e : CompileError} {k line line' : Nat} : e.line? = some line →
      (keptNumbers a)[k]? = some line → (keptNumbers b)[k]? = some line' →
      ReadAlike a b (.error e) (.error (e.atLine line'))

theorem length_numbersFrom (raws : List (List Char)) :
    ∀ number, (numbersFrom number raws).length = (keptOf raws).length := by
  induction raws with
  | nil => exact fun _ => rfl
  | cons raw raws ih =>
      intro number
      have hrest := ih (number + 1)
      rw [numbersFrom] at hrest ⊢
      rw [List.zipIdx_cons, List.filterMap_cons]
      cases hb : (clean raw).isEmpty with
      | true => simpa [keptOf_cons_of_blank hb] using hrest
      | false => simpa [keptOf_cons hb] using hrest

/-- As many lines are kept in front of a line that is kept as numbers stand in front of its own. -/
theorem keptNumbers_getElem? {source : String} {earlier later : List (List Char)} {raw : List Char}
    (hlines : splitLines source.toList = earlier ++ raw :: later)
    (hkept : (clean raw).isEmpty = false) :
    (keptNumbers source)[(keptOf earlier).length]? = some (earlier.length + 1) := by
  have hsplit : keptNumbers source =
      numbersFrom 1 earlier ++ numbersFrom (1 + earlier.length) (raw :: later) := by
    rw [keptNumbers, hlines, numbersFrom, List.zipIdx_append, List.filterMap_append]
    rfl
  have hfront := length_numbersFrom earlier 1
  rw [hsplit, List.getElem?_append_right (Nat.le_of_eq hfront), hfront, Nat.sub_self, numbersFrom,
    List.zipIdx_cons, List.filterMap_cons, Nat.add_comm 1]
  simp only [hkept, Bool.false_eq_true, if_false, List.getElem?_cons_zero]

/-- A line that is kept comes from a line of the source, behind lines of which those in front of it
are kept. -/
theorem exists_raw_of_keptOf {raws : List (List Char)} :
    ∀ {front behind : List (List Char)} {line : List Char}, keptOf raws = front ++ line :: behind →
      ∃ earlier raw later, raws = earlier ++ raw :: later ∧ keptOf earlier = front ∧
        clean raw = line := by
  induction raws with
  | nil =>
      exact fun h => absurd h.symm (List.append_ne_nil_of_right_ne_nil _ (List.cons_ne_nil _ _))
  | cons raw raws ih =>
      intro front behind line h
      cases hb : (clean raw).isEmpty with
      | true =>
          rw [keptOf_cons_of_blank hb] at h
          obtain ⟨earlier, raw', later, rfl, hfront, hline⟩ := ih h
          exact ⟨raw :: earlier, raw', later, rfl, (keptOf_cons_of_blank hb _).trans hfront, hline⟩
      | false =>
          rw [keptOf_cons hb] at h
          cases front with
          | nil =>
              obtain ⟨hline, -⟩ := List.cons.inj h
              exact ⟨[], raw, raws, rfl, rfl, hline⟩
          | cons first front =>
              obtain ⟨rfl, hrest⟩ := List.cons.inj h
              obtain ⟨earlier, raw', later, rfl, hfront, hline⟩ := ih hrest
              refine ⟨raw :: earlier, raw', later, rfl, ?_, hline⟩
              rw [keptOf_cons hb, hfront]

/-- A line with a fault is kept. -/
theorem FaultAt.kept {earlier : List (List Char)} {raw : List Char} {e : CompileError}
    (h : FaultAt earlier raw e) : (clean raw).isEmpty = false := by
  rcases h with ⟨word, hword, -⟩ | ⟨name, ⟨-, cs, hcs, -⟩, -⟩
  · exact hword.classify_eq.1
  · exact kept_of_decidingWord? hcs

/-- A fault is one of the cleaned line and the kept lines in front of it. -/
theorem FaultAt.congr {earlier earlier' : List (List Char)} {raw raw' : List Char}
    {e : CompileError} (h : FaultAt earlier raw e) (hearlier : keptOf earlier' = keptOf earlier)
    (hraw : clean raw' = clean raw) : FaultAt earlier' raw' (e.atLine (earlier'.length + 1)) := by
  have htitle : IsTitle earlier' raw' ↔ IsTitle earlier raw := by
    rw [IsTitle, IsTitle, hearlier, hraw]
  have hnames : namesDefinedIn earlier' = namesDefinedIn earlier := by
    rw [namesDefinedIn, namesDefinedIn, hearlier]
  rcases h with ⟨word, hword, rfl⟩ | ⟨name, hname, rfl⟩
  · refine Or.inl ⟨word, ?_, rfl⟩
    rw [Unexpected, htitle, hraw]
    exact hword
  · refine Or.inr ⟨name, ?_, rfl⟩
    rw [Overfull, htitle, hraw, hnames]
    exact hname

/-- An outline settles the content of a story. -/
theorem Outline.Describes.sameContent {o : Outline} {x y : Story} (hx : o.Describes x)
    (hy : o.Describes y) : x.sameContent y = true := by
  have htitle : x.title = y.title := hx.title.trans hy.title.symm
  have hcells : x.cells = y.cells :=
    Directory.ext_of_find? fun id => (hx.cells id).trans (hy.cells id).symm
  have hitems : x.items = y.items := Registry.items_injective (hx.items.trans hy.items.symm)
  simp [Story.sameContent, htitle, hcells, hitems]

/-- What is kept of a source decides what comes of it. -/
theorem readAlike_of_keptLines_eq {a b : String} (h : keptLines a = keptLines b)
    (ta tb : Timestamp) : ReadAlike a b (compile ta a).result (compile tb b).result := by
  have houtline : outline b = outline a := by rw [outline, outline, h]
  cases ha : (compile ta a).result with
  | ok x =>
      have haccepted := (exists_result_eq_ok_iff ta).mp ⟨x, ha⟩
      obtain ⟨y, hy⟩ := (exists_result_eq_ok_iff tb).mpr (houtline ▸ haccepted)
      rw [hy]
      exact .compiles ((describes_of_result ha).sameContent (houtline ▸ describes_of_result hy))
  | error e =>
      obtain ⟨earlier, raw, later, hlines, haccepted, hfault⟩ := result_eq_error_iff.mp ha
      have hkept : keptOf (splitLines b.toList) =
          keptOf earlier ++ clean raw :: keptOf later := by
        rw [← keptOf_cons hfault.kept, ← keptOf_append, ← hlines]
        exact h.symm
      obtain ⟨earlier', raw', later', hlines', hearlier, hraw⟩ := exists_raw_of_keptOf hkept
      have hfault' := hfault.congr hearlier hraw
      rw [result_eq_error_iff.mpr ⟨earlier', raw', later', hlines', hearlier ▸ haccepted, hfault'⟩]
      refine .fails (k := (keptOf earlier).length) hfault.line?
        (keptNumbers_getElem? hlines hfault.kept) ?_
      rw [← hearlier]
      exact keptNumbers_getElem? hlines' hfault'.kept

/-- Sources with the same lines, but for comments, margins and blank lines, come to the same, if to
errors then at the same of these lines.  So do a source and what changes of its layout make of it:
blank lines and comment lines anywhere, comments and blanks behind lines, blanks in front of them,
and carriage returns in front of some or all line feeds. -/
theorem readAlike_of_layout :
    (∀ a b : String, keptLines a = keptLines b → ∀ ta tb,
      ReadAlike a b (compile ta a).result (compile tb b).result) ∧
    (∀ a b : String, Relaid a b → keptLines a = keptLines b ∧ ∀ ta tb,
      ReadAlike a b (compile ta a).result (compile tb b).result) ∧
    ∀ a : String, Relaid a (String.ofList (withReturns a.toList)) := by
  refine ⟨fun a b h => readAlike_of_keptLines_eq h, fun a b h => ?_, relaid_withReturns⟩
  exact ⟨h.keptLines_eq, readAlike_of_keptLines_eq h.keptLines_eq⟩

/-- A source with a fault in its third line. -/
def plainSource : String :=
  "A walk
:Start
^here"

/-- The same with blank lines, comments, margins and a carriage return. -/
def spacedSource : String :=
  "# before the title
\tA walk # for two

:Start\r
\u00a0\u00a0# nothing yet
  ^here# nor here
"

theorem readAlike_of_layout_spaced :
    keptLines plainSource = keptLines spacedSource ∧
      Relaid plainSource (String.ofList (withReturns plainSource.toList)) ∧
      (compile .epoch plainSource).result = .error (.unexpectedGlyph 3 "^here") ∧
      (compile .epoch spacedSource).result = .error (.unexpectedGlyph 6 "^here") ∧
      (compile .epoch (String.ofList (withReturns plainSource.toList))).result =
        .error (.unexpectedGlyph 3 "^here") := by
  have hkept : keptLines plainSource = keptLines spacedSource := by decide +kernel
  have hplain : (compile .epoch plainSource).result = .error (.unexpectedGlyph 3 "^here") := by
    decide +kernel
  have hnumbers : keptNumbers plainSource = [1, 2, 3] := by decide +kernel
  -- the fault is in the third of the lines that are kept, so it is in the third of the others
  have hthird : ∀ {b : String} {result : Except CompileError Story} {line : Nat},
      ReadAlike plainSource b (compile .epoch plainSource).result result →
      (keptNumbers b)[2]? = some line → result = .error (.unexpectedGlyph line "^here") := by
    intro b result line halike hb
    rw [hplain] at halike
    cases halike with
    | @fails _ k line₁ line₂ hline hk hk' =>
        obtain rfl : 3 = line₁ := Option.some.inj hline
        rw [hnumbers] at hk
        match k, hk with
        | 2, _ =>
            obtain rfl := Option.some.inj (hk'.symm.trans hb)
            rfl
  obtain ⟨hkeeps, hlayout, hreturns⟩ := readAlike_of_layout
  refine ⟨hkept, hreturns _, hplain,
    hthird (hkeeps _ _ hkept .epoch .epoch) (by decide +kernel), ?_⟩
  exact hthird ((hlayout _ _ (hreturns _)).2 .epoch .epoch) (by decide +kernel)

end Gamebook.Source
