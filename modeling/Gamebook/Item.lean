/-
# Items and what a reader holds

An item owns one bit of a 64-bit state.  A state is a bare mask: the bits that
no item owns are carried along and mean nothing.
-/

namespace Gamebook

/-- An item of a story.  Its bit is fixed when it is first defined. -/
structure Item where
  name : String
  bit : Nat
  description : String
deriving DecidableEq

/-- The mask with the item's bit alone. -/
def Item.mask (item : Item) : UInt64 := 1 <<< UInt64.ofNat item.bit

/-- The items a reader holds, as the set bits of a mask. -/
structure Holdings where
  bits : UInt64
deriving DecidableEq

namespace Holdings

def empty : Holdings := ⟨0⟩

/-- Whether any bit of the mask is set. -/
def possesses (held : Holdings) (mask : UInt64) : Bool := held.bits &&& mask != 0

def holds (held : Holdings) (item : Item) : Bool := held.possesses item.mask

def insert (held : Holdings) (item : Item) : Holdings := ⟨held.bits ||| item.mask⟩

def erase (held : Holdings) (item : Item) : Holdings := ⟨held.bits &&& ~~~item.mask⟩

/-- The mask in decimal. -/
def text (held : Holdings) : String := toString held.bits.toNat

end Holdings

end Gamebook
