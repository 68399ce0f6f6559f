/-
# Cell identifiers

A cell is addressed by a 32-bit number derived from its name.  The derivation
is a one-at-a-time hash over the characters of the name, all arithmetic modulo
2³², so two names may share an identifier.  The written form is eight
lower-case base-sixteen digits; the reader takes either letter case and
nothing shorter, longer, signed or spaced.
-/
import Gamebook.Text.Numeral

namespace Gamebook

structure CellId where
  value : UInt32
deriving DecidableEq

namespace CellId

instance : LT CellId := ⟨fun a b => a.value < b.value⟩

instance (a b : CellId) : Decidable (a < b) :=
  inferInstanceAs (Decidable (a.value < b.value))

/-- Stir one character into the running hash. -/
def mix (acc : UInt32) (c : Char) : UInt32 :=
  let added := acc + c.val
  let spread := added + (added <<< 10)
  spread ^^^ (spread >>> 6)

/-- The closing steps, run once after the last character. -/
def finish (acc : UInt32) : UInt32 :=
  let spread := acc + (acc <<< 3)
  let folded := spread ^^^ (spread >>> 11)
  folded + (folded <<< 15)

def ofName (name : String) : CellId := ⟨finish (name.toList.foldl mix 0)⟩

/-- The cell where reading begins when none is asked for: the one named `Start`. -/
def start : CellId := ⟨0xb72c5e85⟩

theorem ofName_start : ofName "Start" = start := by decide

/-- Eight lower-case base-sixteen digits. -/
def digits (id : CellId) : List Char := Text.hexFixed 8 id.value.toNat

def text (id : CellId) : String := String.ofList id.digits

def ofDigits? (cs : List Char) : Option CellId :=
  if cs.length = 8 then (Text.ofHex? cs).map fun n => ⟨UInt32.ofNat n⟩ else none

/-- Read the written form, in either letter case. -/
def ofText? (s : String) : Option CellId := ofDigits? s.toList

end CellId

end Gamebook
