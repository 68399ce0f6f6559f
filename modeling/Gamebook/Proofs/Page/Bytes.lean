/-
# The bytes of a text

A page is counted in the bytes of its UTF-8 form, and so is the identifier in front of a
token.  An ASCII character is one byte, its own code, and any other character ends in a
byte from 128 up; so to look for ASCII characters byte by byte or character by character
is the same (`forall_mem_utf8_iff`).
-/

namespace Gamebook.Page

/-- The loop that lists bytes puts those from a position on behind what it has. -/
theorem toList_loop (bytes : ByteArray) (i : Nat) (front : List UInt8) :
    ByteArray.toList.loop bytes i front = front.reverse ++ bytes.data.toList.drop i := by
  induction i, front using ByteArray.toList.loop.induct bytes with
  | case1 i front hlt ih =>
      have hlt' : i < bytes.data.toList.length := hlt
      have hget : bytes.get! i = bytes.data.toList[i] := getElem!_pos bytes.data i hlt
      rw [ByteArray.toList.loop, if_pos hlt, ih, List.drop_eq_getElem_cons hlt', hget]
      simp
  | case2 i front hge =>
      have hnil : bytes.data.toList.drop i = [] := List.drop_eq_nil_of_le (Nat.le_of_not_lt hge)
      rw [ByteArray.toList.loop, if_neg hge, hnil, List.append_nil]

/-- The bytes of a text in UTF-8. -/
def bytesOf (text : String) : List UInt8 := text.toUTF8.toList

theorem bytesOf_eq (text : String) : bytesOf text = text.toByteArray.data.toList := by
  rw [bytesOf, ByteArray.toList, toList_loop]
  rfl

@[simp] theorem bytesOf_empty : bytesOf "" = [] := by
  rw [bytesOf_eq]
  rfl

@[simp] theorem bytesOf_append (text text' : String) :
    bytesOf (text ++ text') = bytesOf text ++ bytesOf text' := by
  rw [bytesOf_eq, bytesOf_eq, bytesOf_eq, String.toByteArray_append, ByteArray.data_append,
    Array.toList_append]

theorem length_bytesOf (text : String) : (bytesOf text).length = text.utf8ByteSize := by
  rw [bytesOf_eq, Array.length_toList]
  rfl

/-! ## The bytes of characters -/

/-- The bytes of characters in UTF-8, one character behind the other. -/
def utf8 (cs : List Char) : List UInt8 := cs.flatMap String.utf8EncodeChar

theorem utf8_append (cs cs' : List Char) : utf8 (cs ++ cs') = utf8 cs ++ utf8 cs' :=
  List.flatMap_append

theorem utf8_eq_nil_iff {cs : List Char} : utf8 cs = [] ↔ cs = [] := by
  cases cs <;> simp [utf8]

theorem bytesOf_eq_utf8 (text : String) : bytesOf text = utf8 text.toList := by
  rw [← String.ofList_toList (s := text), bytesOf_eq, String.toByteArray_ofList, List.utf8Encode,
    List.toList_data_toByteArray, String.toList_ofList, utf8]

theorem utf8EncodeChar_of_lt {c : Char} (h : c.toNat < 128) :
    String.utf8EncodeChar c = [UInt8.ofNat c.toNat] :=
  if_pos (Nat.le_of_lt_succ h)

/-- A longer character ends in a byte that is no ASCII character. -/
theorem exists_mem_utf8EncodeChar {c : Char} (h : 128 ≤ c.toNat) :
    ∃ b ∈ String.utf8EncodeChar c, 128 ≤ b.toNat := by
  have hone : ¬ c.val.toNat ≤ 127 := Nat.not_le.mpr h
  refine ⟨UInt8.ofNat (c.val.toNat % 64 + 128), ?_, ?_⟩
  · simp only [String.utf8EncodeChar, if_neg hone]
    split
    · simp
    · split <;> simp
  · rw [UInt8.toNat_ofNat']
    omega

/-- A property that only ASCII characters have is one of their bytes. -/
theorem forall_mem_utf8_iff {p : Char → Prop} {q : UInt8 → Prop}
    (hascii : ∀ n < 128, (q (UInt8.ofNat n) ↔ p (Char.ofNat n)))
    (hp : ∀ c, p c → c.toNat < 128) (hq : ∀ b, q b → b.toNat < 128) {cs : List Char} :
    (∀ b ∈ utf8 cs, q b) ↔ ∀ c ∈ cs, p c := by
  rw [utf8, List.forall_mem_flatMap]
  refine forall₂_congr fun c _ => ?_
  rcases Nat.lt_or_ge c.toNat 128 with hlt | hge
  · have h := hascii c.toNat hlt
    rw [Char.ofNat_toNat] at h
    simp [utf8EncodeChar_of_lt hlt, h]
  · obtain ⟨b, hb, hle⟩ := exists_mem_utf8EncodeChar hge
    constructor
    · intro hall
      exact absurd (hq b (hall b hb)) (Nat.not_lt.mpr hle)
    · intro hc
      exact absurd (hp c hc) (Nat.not_lt.mpr hge)

theorem utf8_concat {cs : List Char} {c : Char} (h : c.toNat < 128) :
    utf8 (cs ++ [c]) = utf8 cs ++ [UInt8.ofNat c.toNat] := by
  have hlast : utf8 [c] = [UInt8.ofNat c.toNat] := by simp [utf8, utf8EncodeChar_of_lt h]
  rw [utf8_append, hlast]

end Gamebook.Page
