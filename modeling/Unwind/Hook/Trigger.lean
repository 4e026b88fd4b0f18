/-
Unwind.Hook.Trigger — address ranges and the usual conditions of hooks.
-/
import Unwind.Hook.Event

namespace Unwind

/-- The addresses from `min` up to but not including `max`. -/
structure AddrRange where
  min : UInt32
  max : UInt32
  deriving DecidableEq

namespace AddrRange

/-- The range of one address. No range of this form holds the last address of
all, which has nothing behind it. -/
def single (address : UInt32) : AddrRange :=
  ⟨address, if address = 0xffffffff then address else address + 1⟩

/-- Whether an address lies in the range. -/
def contains (r : AddrRange) (address : UInt32) : Bool :=
  r.min ≤ address && address < r.max

/-- Whether a transfer of `len` bytes from `base` on touches the range: it
begins before the range ends and ends after the range begins. Its end is
taken without wrapping. -/
def overlaps (r : AddrRange) (base len : UInt32) : Bool :=
  base < r.max && base.toNat + len.toNat > r.min.toNat

end AddrRange

/-- The usual conditions of hooks. -/
inductive Trigger
  /-- Execution reaches this address. -/
  | pc (address : UInt32)
  /-- All of these buttons are held. -/
  | buttons (wanted : UInt32)
  | ramRead (range : AddrRange)
  | ramWrite (range : AddrRange)
  | cartRead (range : AddrRange)
  | cartWrite (range : AddrRange)
  deriving DecidableEq

namespace Trigger

/-- Whether an event meets the condition. No buttons at all are never held. -/
def fires : Trigger → Event → Bool
  | pc wanted, .pc address => wanted == address
  | buttons wanted, .buttons held => wanted != 0 && held &&& wanted == wanted
  | ramRead range, .ramRead address => range.contains address
  | ramWrite range, .ramWrite address _ _ => range.contains address
  | cartRead range, .cartRead transfer => range.overlaps transfer.base transfer.len
  | cartWrite range, .cartWrite transfer => range.overlaps transfer.base transfer.len
  | _, _ => false

end Trigger

end Unwind
