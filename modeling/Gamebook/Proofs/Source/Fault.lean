/-
# The first fault of a source

Two things can be wrong with a line: the word that decides what the line is has a
reserved glyph (`Unexpected`), or it defines an item for which no bit is left
(`Overfull`).  Both are read from the line and the lines in front of it, without
the compiler: the title is no statement, guards and links in front decide nothing,
and names count once however often they are defined.

A source fails with a fault exactly if some line has it and the lines in front have
none (`result_eq_error_iff`).  What stands behind that line plays no part, so a
source fails as soon as its first lines do, and not before.

Main statement: `fault_of_compile`.
-/
import Gamebook.Proofs.Source.Pass
import Mathlib.Data.List.TakeWhile

namespace Gamebook.Source

open Registry (definedNames)

/-! ## What can be wrong with a line -/

/-- The first word that is no guard and no link. -/
def decidingWord? (line : List Char) : Option (List Char) :=
  (words line).find? fun word => !isLeading word

/-- What may stand behind a glyph. -/
def IsName (cs : List Char) : Prop := cs ≠ [] ∧ ∀ c ∈ cs, isNameChar c = true

instance (cs : List Char) : Decidable (IsName cs) :=
  haveI : Decidable (∀ c ∈ cs, isNameChar c = true) := List.decidableBAll _ cs
  instDecidableAnd

def reservedGlyphs : List Char := ['/', '<', '=', '\\', '^', '|', '~']

/-- A line is the title if it is the first that is kept and begins with no directive. -/
def IsTitle (earlier : List (List Char)) (raw : List Char) : Prop :=
  keptOf earlier = [] ∧ (clean raw).isEmpty = false ∧ beginsWithDirective (clean raw) = false

/-- The distinct names that lines define. -/
def namesDefinedIn (lines : List (List Char)) : List String :=
  definedNames (definitionsOf (Outline.ofKept (keptOf lines)).statements)

/-- The line is not the title, and the word that decides what it is has a reserved glyph. -/
def Unexpected (earlier : List (List Char)) (raw : List Char) (word : String) : Prop :=
  ¬IsTitle earlier raw ∧
    ∃ glyph name, decidingWord? (clean raw) = some (glyph :: name) ∧ glyph ∈ reservedGlyphs ∧
      IsName name ∧ word = String.ofList (glyph :: name)

/-- The line is not the title and defines a new name, and the lines in front have defined as many
names as there are bits. -/
def Overfull (earlier : List (List Char)) (raw : List Char) (name : String) : Prop :=
  ¬IsTitle earlier raw ∧
    ∃ cs, decidingWord? (clean raw) = some ('%' :: cs) ∧ IsName cs ∧ name = String.ofList cs ∧
      name ∉ namesDefinedIn earlier ∧ (namesDefinedIn earlier).length = capacity

/-- What a line is refused with behind others. -/
def FaultAt (earlier : List (List Char)) (raw : List Char) (e : CompileError) : Prop :=
  (∃ word, Unexpected earlier raw word ∧ e = .unexpectedGlyph (earlier.length + 1) word) ∨
    ∃ name, Overfull earlier raw name ∧ e = .item (earlier.length + 1) (.registryFull name)

/-! ## The deciding word -/

theorem Glyph.ofChar?_eq_reserved_iff {c : Char} :
    Glyph.ofChar? c = some .reserved ↔ c ∈ reservedGlyphs := by
  simp only [reservedGlyphs, List.mem_cons, List.not_mem_nil, or_false]
  constructor
  · intro h
    unfold Glyph.ofChar? at h
    split at h <;> simp_all
  · rintro (rfl | rfl | rfl | rfl | rfl | rfl | rfl) <;> rfl

theorem Glyph.ofChar?_eq_define_iff {c : Char} : Glyph.ofChar? c = some .define ↔ c = '%' := by
  constructor
  · intro h
    unfold Glyph.ofChar? at h
    split at h <;> simp_all
  · rintro rfl
    rfl

theorem Directive.ofWord?_eq_some_iff {word : List Char} {glyph : Glyph} {name : String} :
    Directive.ofWord? word = some ⟨glyph, name⟩ ↔
      ∃ c cs, word = c :: cs ∧ Glyph.ofChar? c = some glyph ∧ IsName cs ∧
        name = String.ofList cs := by
  cases word with
  | nil => simp [Directive.ofWord?]
  | cons c cs =>
      simp only [Directive.ofWord?, List.cons.injEq]
      cases hg : Glyph.ofChar? c with
      | none => simp_all
      | some g =>
          by_cases hn : IsName cs
          · have hname : (!cs.isEmpty && cs.all isNameChar) = true := by
              simpa [IsName] using hn
            simp only [hname, if_true]
            constructor
            · intro h
              obtain ⟨rfl, rfl⟩ := Directive.mk.inj (Option.some.inj h)
              exact ⟨c, cs, ⟨rfl, rfl⟩, hg, hn, rfl⟩
            · rintro ⟨_, _, ⟨rfl, rfl⟩, hg', -, rfl⟩
              rw [hg] at hg'
              rw [Option.some.inj hg']
          · have hname : (!cs.isEmpty && cs.all isNameChar) = false := by
              simpa [IsName] using hn
            simp only [hname, Bool.false_eq_true, if_false]
            constructor
            · exact fun h => absurd h (by simp)
            · rintro ⟨_, _, ⟨rfl, rfl⟩, -, hn', -⟩
              exact absurd hn' hn

/-- The deciding word is the first behind the leading run. -/
theorem decidingWord?_eq_head? (line : List Char) :
    decidingWord? line = ((words line).dropWhile isLeading).head? :=
  List.find?_not_eq_head?_dropWhile ..

namespace Statement

/-- A line whose deciding word is no directive is content.  Any other is read from that word on, and
its glyph is none of those that may stand in front. -/
theorem classify_cases (line : List Char) :
    (∃ l, classify line = .content l ∧
      ∀ word d, decidingWord? line = some word → Directive.ofWord? word ≠ some d) ∨
    ∃ word glyph name front rest, decidingWord? line = some word ∧
      Directive.ofWord? word = some ⟨glyph, name⟩ ∧
      (glyph == .require || glyph == .forbid || glyph == .link) = false ∧
      classify line = ofRemainder front (word :: rest) := by
  have hdeciding := decidingWord?_eq_head? line
  rw [classify]
  cases hw : (words line).dropWhile isLeading with
  | nil =>
      rw [hw, List.head?_nil] at hdeciding
      exact Or.inl ⟨_, rfl, fun word d h => absurd (hdeciding.symm.trans h) (by simp)⟩
  | cons word rest =>
      rw [hw, List.head?_cons] at hdeciding
      cases hd : Directive.ofWord? word with
      | none =>
          left
          rw [ofRemainder, hd]
          refine ⟨_, rfl, fun word' d h => ?_⟩
          obtain rfl := Option.some.inj (hdeciding.symm.trans h)
          simp [hd]
      | some d =>
          obtain ⟨glyph, name⟩ := d
          have hleading : isLeading word = false := by simpa using List.find?_some hdeciding
          rw [isLeading_of_ofWord? hd] at hleading
          exact Or.inr ⟨word, glyph, name, _, rest, hdeciding, hd, hleading, rfl⟩

/-- A line is refused for its deciding word. -/
theorem classify_eq_refused_iff {line : List Char} {s : String} :
    classify line = .refused s ↔
      ∃ word name, decidingWord? line = some word ∧
        Directive.ofWord? word = some ⟨.reserved, name⟩ ∧ s = String.ofList word := by
  rcases classify_cases line with
    ⟨l, hl, hnone⟩ | ⟨word, glyph, name, front, rest, hw, hd, hleading, hclass⟩
  · rw [hl]
    constructor
    · exact fun h => nomatch h
    · rintro ⟨word, name, hw, hd, -⟩
      exact absurd hd (hnone word _ hw)
  · have hreserved : (∃ w n, decidingWord? line = some w ∧
        Directive.ofWord? w = some ⟨.reserved, n⟩ ∧ s = String.ofList w) ↔
          glyph = .reserved ∧ String.ofList word = s := by
      constructor
      · rintro ⟨w, n, hw', hn, rfl⟩
        obtain rfl := Option.some.inj (hw.symm.trans hw')
        exact ⟨(Directive.mk.inj (Option.some.inj (hd.symm.trans hn))).1, rfl⟩
      · rintro ⟨rfl, rfl⟩
        exact ⟨word, name, hw, hd, rfl⟩
    rw [hclass, hreserved]
    cases glyph <;> simp_all [ofRemainder]

/-- A line defines an item by its deciding word. -/
theorem exists_classify_eq_defineItem_iff {line : List Char} {name : String} :
    (∃ description, classify line = .defineItem name description) ↔
      ∃ word, decidingWord? line = some word ∧ Directive.ofWord? word = some ⟨.define, name⟩ := by
  rcases classify_cases line with
    ⟨l, hl, hnone⟩ | ⟨word, glyph, other, front, rest, hw, hd, hleading, hclass⟩
  · rw [hl]
    constructor
    · rintro ⟨description, h⟩
      exact nomatch h
    · rintro ⟨word, hw, hd⟩
      exact absurd hd (hnone word _ hw)
  · rw [hclass, hw]
    cases glyph <;> simp_all [ofRemainder]

end Statement

/-- A line that says anything is not blank. -/
theorem kept_of_decidingWord? {line word : List Char} {glyph : Char}
    (h : decidingWord? line = some (glyph :: word)) : line.isEmpty = false := by
  cases line with
  | nil =>
      have hempty : decidingWord? [] = some [] := rfl
      exact absurd (hempty.symm.trans h) (by simp)
  | cons c cs => rfl

/-- A line with an unexpected glyph is one that the compiler refuses. -/
theorem Unexpected.classify_eq {earlier : List (List Char)} {raw : List Char} {word : String}
    (h : Unexpected earlier raw word) :
    (clean raw).isEmpty = false ∧ Statement.classify (clean raw) = .refused word := by
  obtain ⟨-, glyph, cs, hw, hg, hn, rfl⟩ := h
  have hd : Directive.ofWord? (glyph :: cs) = some ⟨.reserved, String.ofList cs⟩ :=
    Directive.ofWord?_eq_some_iff.mpr
      ⟨glyph, cs, rfl, Glyph.ofChar?_eq_reserved_iff.mpr hg, hn, rfl⟩
  exact ⟨kept_of_decidingWord? hw, Statement.classify_eq_refused_iff.mpr ⟨_, _, hw, hd, rfl⟩⟩

/-! ## A fault is where the pass stops -/

section Reached

variable {compiledAt : Timestamp} {earlier : List (List Char)} {draft : Draft} {events : List Event}
  {raw : List Char}

/-- Which lines are read as statements, without the draft. -/
theorem Draft.Reached.takes_iff (h : Reached compiledAt earlier draft events) {s : Statement} :
    draft.Takes raw s ↔
      (clean raw).isEmpty = false ∧ ¬IsTitle earlier raw ∧ Statement.classify (clean raw) = s := by
  have huntitled : (clean raw).isEmpty = false →
      ((draft.titleSeen = true ∨ beginsWithDirective (clean raw) = true) ↔
        ¬IsTitle earlier raw) := by
    intro hkept
    rw [h.titleSeen_eq, IsTitle]
    cases keptOf earlier <;> simp [hkept]
  constructor
  · intro ht
    exact ⟨ht.kept, (huntitled ht.kept).mp ht.untitled, ht.reads⟩
  · rintro ⟨hkept, ht, hs⟩
    exact ⟨hkept, (huntitled hkept).mpr ht, hs⟩

theorem Draft.Reached.step_error_iff (h : Reached compiledAt earlier draft events)
    {e : CompileError} :
    Step draft (earlier.length + 1) raw [] (.error e) ↔ FaultAt earlier raw e := by
  have hsize : draft.story.items.size = (namesDefinedIn earlier).length := by
    rw [Registry.size, h.items_eq, Registry.length_itemsOf]
    rfl
  have hfresh : ∀ name, draft.story.items.lookup? name = none ↔ name ∉ namesDefinedIn earlier := by
    intro name
    rw [Registry.lookup?_eq_none_iff, h.items_eq, Registry.map_name_itemsOf]
    rfl
  constructor
  · intro hstep
    rcases hstep.fault_cases with ⟨word, ht, rfl⟩ | ⟨name, description, ht, hnew, hfull, rfl⟩
    · obtain ⟨-, htitle, hs⟩ := h.takes_iff.mp ht
      obtain ⟨w, name, hw, hd, rfl⟩ := Statement.classify_eq_refused_iff.mp hs
      obtain ⟨glyph, cs, rfl, hg, hn, -⟩ := Directive.ofWord?_eq_some_iff.mp hd
      exact Or.inl ⟨_, ⟨htitle, glyph, cs, hw, Glyph.ofChar?_eq_reserved_iff.mp hg, hn, rfl⟩, rfl⟩
    · obtain ⟨-, htitle, hs⟩ := h.takes_iff.mp ht
      obtain ⟨w, hw, hd⟩ := Statement.exists_classify_eq_defineItem_iff.mp ⟨description, hs⟩
      obtain ⟨glyph, cs, rfl, hg, hn, hname⟩ := Directive.ofWord?_eq_some_iff.mp hd
      obtain rfl := Glyph.ofChar?_eq_define_iff.mp hg
      refine Or.inr ⟨name, ⟨htitle, cs, hw, hn, hname, (hfresh name).mp hnew, ?_⟩, rfl⟩
      rw [← hsize]
      exact Nat.le_antisymm draft.story.items.length_le hfull
  · rintro (⟨word, hword, rfl⟩ | ⟨name, ⟨htitle, cs, hw, hn, rfl, hnew, hfull⟩, rfl⟩)
    · obtain ⟨hkept, hs⟩ := hword.classify_eq
      exact .refuse (h.takes_iff.mpr ⟨hkept, hword.1, hs⟩)
    · have hd : Directive.ofWord? ('%' :: cs) = some ⟨.define, String.ofList cs⟩ :=
        Directive.ofWord?_eq_some_iff.mpr ⟨'%', cs, rfl, rfl, hn, rfl⟩
      obtain ⟨description, hs⟩ := Statement.exists_classify_eq_defineItem_iff.mpr ⟨_, hw, hd⟩
      refine .full (h.takes_iff.mpr ⟨kept_of_decidingWord? hw, htitle, hs⟩)
        ((hfresh _).mpr hnew) ?_
      rw [hsize, hfull]

end Reached

/-! ## Compiling -/

/-- A source fails with a fault exactly if some line has it and the lines in front have none. -/
theorem result_eq_error_iff {compiledAt : Timestamp} {source : String} {e : CompileError} :
    (compile compiledAt source).result = .error e ↔
      ∃ earlier raw later, splitLines source.toList = earlier ++ raw :: later ∧
        (Outline.ofKept (keptOf earlier)).Accepted ∧ FaultAt earlier raw e := by
  constructor
  · intro he
    obtain ⟨earlier, raw, later, draft, hlines, h, hstep⟩ := exists_fault_of_result he
    exact ⟨earlier, raw, later, hlines, (Draft.exists_reached_iff compiledAt).mp ⟨draft, _, h⟩,
      h.step_error_iff.mp hstep⟩
  · rintro ⟨earlier, raw, later, hlines, haccepted, hfault⟩
    obtain ⟨draft, events, h⟩ := (Draft.exists_reached_iff compiledAt).mpr haccepted
    have hall := h.readAll (raw :: later)
    rw [Draft.readAll, (h.step_error_iff.mpr hfault).read_eq] at hall
    rw [compile, hlines, hall]

/-- Behind lines without a fault a line has at most one. -/
theorem FaultAt.unique {earlier : List (List Char)} {raw : List Char} {e e' : CompileError}
    (haccepted : (Outline.ofKept (keptOf earlier)).Accepted) (h : FaultAt earlier raw e)
    (h' : FaultAt earlier raw e') : e = e' := by
  obtain ⟨draft, events, hr⟩ := (Draft.exists_reached_iff .epoch).mpr haccepted
  have hread := (hr.step_error_iff.mpr h).read_eq
  rw [(hr.step_error_iff.mpr h').read_eq] at hread
  exact (Except.error.inj (congrArg Prod.snd hread)).symm

theorem FaultAt.line? {earlier : List (List Char)} {raw : List Char} {e : CompileError}
    (h : FaultAt earlier raw e) : e.line? = some (earlier.length + 1) := by
  rcases h with ⟨word, -, rfl⟩ | ⟨name, -, rfl⟩ <;> rfl

/-- A source that fails points at its first line with a fault.  The lines in front, in a text of
their own, compile; every text that begins with the lines up to this one fails as the source does.
The fault is an unexpected glyph exactly if the line is not the title and its deciding word has a
reserved glyph, and it is a full registry exactly if the line is not the title and defines one name
more than there are bits; there is no other. -/
theorem fault_of_compile {compiledAt : Timestamp} {source : String} {e : CompileError}
    (h : (compile compiledAt source).result = .error e) :
    ∃ n earlier raw, e.line? = some n ∧ n = earlier.length + 1 ∧
      (splitLines source.toList).take n = earlier ++ [raw] ∧
      (∀ k, ∃ part : String, splitLines part.toList = (splitLines source.toList).take k) ∧
      (∀ (k : Nat) (part : String) (t : Timestamp),
        splitLines part.toList = (splitLines source.toList).take k →
          (k < n → ∃ story, (compile t part).result = .ok story) ∧
          (n ≤ k → (compile t part).result = .error e)) ∧
      (∀ (other : String) (t : Timestamp),
        (splitLines other.toList).take n = (splitLines source.toList).take n →
          (compile t other).result = .error e) ∧
      (∀ word, e = .unexpectedGlyph n word ↔ Unexpected earlier raw word) ∧
      (∀ name, e = .item n (.registryFull name) ↔ Overfull earlier raw name) ∧
      ((∃ word, e = .unexpectedGlyph n word) ∨ ∃ name, e = .item n (.registryFull name)) := by
  obtain ⟨earlier, raw, later, hlines, haccepted, hfault⟩ := result_eq_error_iff.mp h
  have htake : (splitLines source.toList).take (earlier.length + 1) = earlier ++ [raw] := by
    rw [hlines, List.take_append, List.take_of_length_le (Nat.le_succ _), Nat.add_sub_cancel_left]
    rfl
  have hother : ∀ (other : String) (t : Timestamp),
      (splitLines other.toList).take (earlier.length + 1) =
        (splitLines source.toList).take (earlier.length + 1) →
      (compile t other).result = .error e := by
    intro other t hsame
    refine result_eq_error_iff.mpr
      ⟨earlier, raw, (splitLines other.toList).drop (earlier.length + 1), ?_, haccepted, hfault⟩
    rw [← List.singleton_append, ← List.append_assoc, ← htake, ← hsame, List.take_append_drop]
  refine ⟨earlier.length + 1, earlier, raw, hfault.line?, rfl, htake, ?_, ?_, hother, ?_, ?_, ?_⟩
  · intro k
    refine ⟨String.ofList (firstLines k source.toList), ?_⟩
    rw [String.toList_ofList, splitLines_firstLines]
  · intro k part t hpart
    constructor
    · intro hk
      have hfront : splitLines part.toList = earlier.take k := by
        rw [hpart, hlines, List.take_append_of_le_length (Nat.le_of_lt_succ hk)]
      rw [exists_result_eq_ok_iff, outline, keptLines, hfront]
      have hwhole :
          (Outline.ofKept (keptOf (earlier.take k) ++ keptOf (earlier.drop k))).Accepted := by
        rwa [← keptOf_append, List.take_append_drop]
      exact hwhole.of_append
    · intro hk
      refine hother part t ?_
      rw [hpart, List.take_take, Nat.min_eq_left hk]
  · intro word
    constructor
    · rintro rfl
      rcases hfault with ⟨word', hw, he⟩ | ⟨name, -, he⟩
      · obtain ⟨-, rfl⟩ := CompileError.unexpectedGlyph.inj he
        exact hw
      · exact absurd he (by simp)
    · exact fun hw => hfault.unique haccepted (Or.inl ⟨word, hw, rfl⟩)
  · intro name
    constructor
    · rintro rfl
      rcases hfault with ⟨word, -, he⟩ | ⟨name', hn, he⟩
      · exact absurd he (by simp)
      · obtain ⟨-, hname⟩ := CompileError.item.inj he
        obtain rfl := Fault.registryFull.inj hname
        exact hn
    · exact fun hn => hfault.unique haccepted (Or.inr ⟨name, hn, rfl⟩)
  · rcases hfault with ⟨word, -, he⟩ | ⟨name, -, he⟩
    · exact Or.inl ⟨word, he⟩
    · exact Or.inr ⟨name, he⟩

/-- A reserved glyph in the title and one behind a gift do no harm; the one behind guard and link
does. -/
def misspeltSource : String :=
  "A walk ^here

:Start
&lamp ^take it
?lamp >Cave ^in Go in
:Cave"

theorem fault_of_compile_misspelt :
    (compile .epoch misspeltSource).result = .error (.unexpectedGlyph 5 "^in") ∧
      ∀ (other : String) (t : Timestamp),
        (splitLines other.toList).take 5 = (splitLines misspeltSource.toList).take 5 →
          (compile t other).result = .error (.unexpectedGlyph 5 "^in") := by
  have h : (compile .epoch misspeltSource).result = .error (.unexpectedGlyph 5 "^in") := by
    decide +kernel
  obtain ⟨n, earlier, raw, hn, -, -, -, -, hother, -⟩ := fault_of_compile h
  obtain rfl : 5 = n := Option.some.inj hn
  exact ⟨h, hother⟩

end Gamebook.Source
