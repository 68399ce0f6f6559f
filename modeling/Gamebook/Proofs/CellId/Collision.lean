/-
# Names that share an identifier

The hash stirs one character after the other into a word and closes with three steps
more.  Every one of these moves is one to one on words of 32 bits: to add a character,
to add a word to its own left shift, which multiplies it by an odd number
(`add_shiftLeft_injective`), and to fold a word onto its own right shift, where two
words with the same image have a difference that is its own shift
(`xor_shiftRight_injective`).

So two names that have met stay together whatever is written behind both of them, and
two names that are apart stay apart; and where one character is different the words are
different from there on to the end.

Main statement: `ofName_separates`, with what it means for the cells of a source whose
names are alike but for one character.
-/
import Gamebook.Proofs.Source.Compile
import Mathlib.Data.List.Dedup
import Mathlib.Data.List.Find
import Mathlib.Data.Nat.ModEq
import Mathlib.Data.Nat.Prime.Basic

namespace Gamebook

namespace CellId

/-! ## Moves on words -/

theorem toNat_add_shiftLeft (x k : UInt32) :
    (x + (x <<< k)).toNat = (1 + 2 ^ (k.toNat % 32)) * x.toNat % 2 ^ 32 := by
  rw [UInt32.toNat_add, UInt32.toNat_shiftLeft, Nat.add_mod_mod, Nat.shiftLeft_eq, Nat.add_mul,
    Nat.one_mul, Nat.mul_comm x.toNat]

/-- To add a word to its left shift is to multiply it by an odd number. -/
theorem add_shiftLeft_injective {k : UInt32} (hk : 0 < k.toNat % 32) :
    Function.Injective fun x : UInt32 => x + (x <<< k) := by
  intro x y h
  have hodd : Odd (1 + 2 ^ (k.toNat % 32)) :=
    odd_one.add_even ((even_two).pow_of_ne_zero hk.ne')
  have hcoprime : Nat.gcd (2 ^ 32) (1 + 2 ^ (k.toNat % 32)) = 1 :=
    ((Nat.coprime_two_right.mpr hodd).pow_right 32).symm
  have hmul : (1 + 2 ^ (k.toNat % 32)) * x.toNat ≡ (1 + 2 ^ (k.toNat % 32)) * y.toNat
      [MOD 2 ^ 32] := by
    have hnat : (x + (x <<< k)).toNat = (y + (y <<< k)).toNat := congrArg UInt32.toNat h
    rwa [toNat_add_shiftLeft, toNat_add_shiftLeft] at hnat
  have hmod : x.toNat ≡ y.toNat [MOD 2 ^ 32] := hmul.cancel_left_of_coprime hcoprime
  exact UInt32.toNat.inj (hmod.eq_of_lt_of_lt x.toNat_lt y.toNat_lt)

/-- The difference of two words that fold onto the same is its own right shift, so it is zero. -/
theorem xor_shiftRight_injective {k : UInt32} (hk : 0 < k.toNat % 32) :
    Function.Injective fun x : UInt32 => x ^^^ (x >>> k) := by
  intro x y h
  have hshift : x ^^^ y = (x ^^^ y) >>> k := by
    rw [UInt32.shiftRight_xor, ← UInt32.xor_eq_zero_iff]
    calc (x ^^^ y) ^^^ ((x >>> k) ^^^ (y >>> k))
        = (x ^^^ (x >>> k)) ^^^ (y ^^^ (y >>> k)) := by ac_rfl
      _ = 0 := UInt32.xor_eq_zero_iff.mpr h
  have hdiv : (x ^^^ y).toNat = (x ^^^ y).toNat / 2 ^ (k.toNat % 32) := by
    rw [← Nat.shiftRight_eq_div_pow, ← UInt32.toNat_shiftRight, ← hshift]
  have hzero : (x ^^^ y).toNat = 0 := by
    by_contra hne
    have hlt := Nat.div_lt_self (Nat.pos_of_ne_zero hne) (Nat.one_lt_two_pow hk.ne')
    exact absurd hdiv (Nat.ne_of_gt hlt)
  exact UInt32.xor_eq_zero_iff.mp (UInt32.toNat.inj hzero)

/-! ## The hash -/

theorem mix_injective (c : Char) : Function.Injective fun acc => mix acc c := by
  have hadd : Function.Injective fun acc : UInt32 => acc + c.val := fun _ _ h =>
    (UInt32.add_left_inj c.val).mp h
  exact (xor_shiftRight_injective (k := 6) (by decide)).comp
    ((add_shiftLeft_injective (k := 10) (by decide)).comp hadd)

theorem mix_char_injective (acc : UInt32) : Function.Injective (mix acc) := by
  have hadd : Function.Injective fun c : Char => acc + c.val := fun _ _ h =>
    Char.ext ((UInt32.add_right_inj acc).mp h)
  exact (xor_shiftRight_injective (k := 6) (by decide)).comp
    ((add_shiftLeft_injective (k := 10) (by decide)).comp hadd)

theorem finish_injective : Function.Injective finish :=
  (add_shiftLeft_injective (k := 15) (by decide)).comp
    ((xor_shiftRight_injective (k := 11) (by decide)).comp
      (add_shiftLeft_injective (k := 3) (by decide)))

/-- Words that differ still do when the same characters have been stirred into both. -/
theorem foldl_mix_injective (cs : List Char) : Function.Injective fun acc => cs.foldl mix acc := by
  induction cs with
  | nil => exact fun _ _ h => h
  | cons c cs ih => exact ih.comp (mix_injective c)

theorem ofName_eq_iff {a b : String} :
    ofName a = ofName b ↔ a.toList.foldl mix 0 = b.toList.foldl mix 0 := by
  rw [ofName, ofName, mk.injEq, finish_injective.eq_iff]

/-- A common ending neither brings two names together nor parts them. -/
theorem ofName_append_eq_iff (a b ending : String) :
    ofName (a ++ ending) = ofName (b ++ ending) ↔ ofName a = ofName b := by
  rw [ofName_eq_iff, ofName_eq_iff, String.toList_append, String.toList_append, List.foldl_append,
    List.foldl_append]
  exact (foldl_mix_injective ending.toList).eq_iff

/-! ## Names with one different character -/

/-- Two texts of one length that have different characters at exactly one place. -/
structure DifferOnce (a b : String) : Prop where
  length_eq : a.length = b.length
  once : ∃! i : Nat, a.toList[i]? ≠ b.toList[i]?

/-- What stands in front of the place and behind it is the same. -/
theorem differOnce_iff {a b : String} :
    DifferOnce a b ↔ ∃ front c d back, c ≠ d ∧ a.toList = front ++ c :: back ∧
      b.toList = front ++ d :: back := by
  constructor
  · rintro ⟨hlength, i, hi, hunique⟩
    have hsame : ∀ j, j ≠ i → a.toList[j]? = b.toList[j]? := fun j hj =>
      not_not.mp fun hne => hj (hunique j hne)
    rw [← String.length_toList, ← String.length_toList] at hlength
    have hia : i < a.toList.length := by
      by_contra hge
      refine hi ?_
      rw [List.getElem?_eq_none (by omega), List.getElem?_eq_none (by omega)]
    have hib : i < b.toList.length := hlength ▸ hia
    refine ⟨a.toList.take i, a.toList[i], b.toList[i], a.toList.drop (i + 1), ?_, ?_, ?_⟩
    · simpa [hia, hib] using hi
    · rw [List.getElem_cons_drop, List.take_append_drop]
    · have hfront : a.toList.take i = b.toList.take i := by
        refine List.ext_getElem? fun j => ?_
        by_cases hj : j < i
        · rw [List.getElem?_take_of_lt hj, List.getElem?_take_of_lt hj, hsame j (by omega)]
        · rw [List.getElem?_take_eq_none (by omega), List.getElem?_take_eq_none (by omega)]
      have hback : a.toList.drop (i + 1) = b.toList.drop (i + 1) := by
        refine List.ext_getElem? fun j => ?_
        rw [List.getElem?_drop, List.getElem?_drop, hsame _ (by omega)]
      rw [hfront, hback, List.getElem_cons_drop, List.take_append_drop]
  · rintro ⟨front, c, d, back, hne, ha, hb⟩
    refine ⟨?_, front.length, ?_, ?_⟩
    · rw [← String.length_toList, ← String.length_toList, ha, hb]
      simp
    · simpa [ha, hb] using hne
    · intro j hj
      by_contra hother
      refine hj ?_
      rw [ha, hb]
      rcases Nat.lt_or_gt_of_ne hother with hlt | hgt
      · rw [List.getElem?_append_left hlt, List.getElem?_append_left hlt]
      · obtain ⟨m, rfl⟩ := Nat.exists_eq_add_of_lt hgt
        rw [List.getElem?_append_right (by omega), List.getElem?_append_right (by omega),
          show front.length + m + 1 - front.length = m + 1 by omega, List.getElem?_cons_succ,
          List.getElem?_cons_succ]

/-- Names with one different character never meet. -/
theorem ofName_ne_of_differOnce {a b : String} (h : DifferOnce a b) : ofName a ≠ ofName b := by
  obtain ⟨front, c, d, back, hne, ha, hb⟩ := differOnce_iff.mp h
  intro hmeet
  rw [ofName_eq_iff, ha, hb, List.foldl_append, List.foldl_append, List.foldl_cons,
    List.foldl_cons] at hmeet
  exact hne (mix_char_injective _ (foldl_mix_injective back hmeet))

end CellId

namespace Source

open CellId (DifferOnce ofName)

/-! ## The cells of a source -/

/-- The names of the cells that a source opens, in order. -/
def openedNames (source : String) : List String :=
  (cellsOf (outline source).statements).map Cell.name

section Apart

variable {o : Outline} {story : Story} (hd : o.Describes story)
variable (hinj : Set.InjOn ofName {name | name ∈ (cellsOf o.statements).map Cell.name})
include hd hinj

/-- Where names have identifiers of their own, a name finds the cell that was opened last under
it. -/
theorem Outline.Describes.cellNamed? {name : String}
    (h : name ∈ (cellsOf o.statements).map Cell.name) :
    story.cellNamed? name = (cellsOf o.statements).reverse.find? fun cell => cell.name = name := by
  rw [Story.cellNamed?, hd.cells]
  refine List.find?_congr fun cell hcell => ?_
  have hname : cell.name ∈ (cellsOf o.statements).map Cell.name :=
    List.mem_map_of_mem (List.mem_reverse.mp hcell)
  exact decide_eq_decide.mpr ⟨fun e => hinj hname h e, fun e => congrArg ofName e⟩

theorem Outline.Describes.exists_cellNamed? {name : String}
    (h : name ∈ (cellsOf o.statements).map Cell.name) :
    ∃ cell, story.cellNamed? name = some cell ∧ cell.name = name := by
  rw [hd.cellNamed? hinj h]
  obtain ⟨cell, hcell, hname⟩ := List.mem_map.mp h
  have hfound : ((cellsOf o.statements).reverse.find? fun c => c.name = name).isSome := by
    rw [List.find?_isSome]
    exact ⟨cell, List.mem_reverse.mpr hcell, by simpa using hname⟩
  obtain ⟨last, hlast⟩ := Option.isSome_iff_exists.mp hfound
  exact ⟨last, hlast, by simpa using List.find?_some hlast⟩

/-- The names in the directory are those that were opened, each once. -/
theorem Outline.Describes.names_perm :
    (story.cells.entries.map fun e => e.2.name).Perm
      ((cellsOf o.statements).map Cell.name).dedup := by
  have hids : (story.cells.entries.map fun e => e.2.name).map ofName =
      story.cells.entries.map Prod.fst := by
    rw [List.map_map]
    exact List.map_congr_left fun e he => (story.addressed e he).symm
  have hnodup : (story.cells.entries.map fun e => e.2.name).Nodup :=
    List.Nodup.of_map ofName (hids ▸ story.cells.nodup_ids)
  rw [List.perm_ext_iff_of_nodup hnodup (List.nodup_dedup _)]
  intro name
  rw [List.mem_dedup, List.mem_map]
  constructor
  · rintro ⟨e, he, rfl⟩
    have hfound : story.cell? e.1 = some e.2 := Directory.find?_of_mem he
    rw [hd.cells] at hfound
    exact List.mem_map_of_mem (List.mem_reverse.mp (List.mem_of_find?_eq_some hfound))
  · intro h
    obtain ⟨cell, hcell, hname⟩ := hd.exists_cellNamed? hinj h
    exact ⟨(ofName name, cell), Directory.mem_of_find? hcell, hname⟩

end Apart

/-- Whatever is written behind two names, they share an identifier afterwards exactly if they did
before, and two names that differ in one character share none.  So a source whose cell names differ
from one another in one character each has one cell for each name, which the name finds. -/
theorem ofName_separates :
    (∀ a b ending : String, ofName (a ++ ending) = ofName (b ++ ending) ↔ ofName a = ofName b) ∧
    (∀ a b : String, DifferOnce a b → ofName a ≠ ofName b) ∧
    ∀ (compiledAt : Timestamp) (source : String) (story : Story),
      (compile compiledAt source).result = .ok story →
      (∀ a ∈ openedNames source, ∀ b ∈ openedNames source, a ≠ b → DifferOnce a b) →
      (story.cells.entries.map fun e => e.2.name).Perm (openedNames source).dedup ∧
        ∀ name ∈ openedNames source, ∃ cell, story.cellNamed? name = some cell ∧
          cell.name = name := by
  refine ⟨CellId.ofName_append_eq_iff, fun a b => CellId.ofName_ne_of_differOnce, ?_⟩
  intro compiledAt source story hresult happart
  have hd := describes_of_result hresult
  have hinj : Set.InjOn ofName {name | name ∈ openedNames source} := by
    intro a ha b hb hmeet
    by_contra hne
    exact CellId.ofName_ne_of_differOnce (happart a ha b hb hne) hmeet
  exact ⟨hd.names_perm hinj, fun name hname => hd.exists_cellNamed? hinj hname⟩

/-- Two rooms, one of them opened again. -/
def roomSource : String :=
  "Rooms
:room1
>room2 Next door
:room2
>room1 Back
:room1 The first room again"

theorem ofName_separates_rooms :
    openedNames roomSource = ["room1", "room2", "room1"] ∧ DifferOnce "room1" "room2" ∧
      ∃ story, (compile .epoch roomSource).result = .ok story ∧
        (story.cells.entries.map fun e => e.2.name).Perm ["room2", "room1"] ∧
        ∃ cell, story.cellNamed? "room1" = some cell ∧ cell.name = "room1" := by
  have hnames : openedNames roomSource = ["room1", "room2", "room1"] := by decide +kernel
  have hdiffer : DifferOnce "room1" "room2" :=
    CellId.differOnce_iff.mpr ⟨"room".toList, '1', '2', [], by decide, rfl, rfl⟩
  have hdiffer' : DifferOnce "room2" "room1" :=
    CellId.differOnce_iff.mpr ⟨"room".toList, '2', '1', [], by decide, rfl, rfl⟩
  have happart : ∀ a ∈ openedNames roomSource, ∀ b ∈ openedNames roomSource, a ≠ b →
      DifferOnce a b := by
    have hrooms : ∀ a ∈ ["room1", "room2", "room1"], a = "room1" ∨ a = "room2" := by decide
    intro a ha b hb hne
    rw [hnames] at ha hb
    rcases hrooms a ha with rfl | rfl <;> rcases hrooms b hb with rfl | rfl
    · exact absurd rfl hne
    · exact hdiffer
    · exact hdiffer'
    · exact absurd rfl hne
  have hok : (compile .epoch roomSource).result.toOption.isSome = true := by decide +kernel
  obtain ⟨story, hr⟩ := exists_eq_ok_of_isSome hok
  obtain ⟨hperm, hcells⟩ := ofName_separates.2.2 .epoch roomSource story hr happart
  refine ⟨hnames, hdiffer, story, hr, ?_, hcells "room1" ?_⟩
  · rw [hnames] at hperm
    exact hperm
  · rw [hnames]
    exact List.mem_cons_self

end Source

end Gamebook
