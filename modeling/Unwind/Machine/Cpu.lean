/-
Unwind.Machine.Cpu — what unwinding needs to know of a machine: a memory that
answers a word for every address, and a stopped processor on top of it.
-/
import Unwind.Isa.Register
import Unwind.Machine.Word

namespace Unwind

/-- A memory is total: unmapped addresses answer some word too. -/
structure Memory where
  /-- The big-endian word at an address, aligned or not. -/
  word : UInt32 → UInt32

namespace Memory

/-- The half word at an address. -/
def half (m : Memory) (address : UInt32) : UInt16 := Word.high (m.word address)

/-- The byte at an address. -/
def byte (m : Memory) (address : UInt32) : UInt8 := Word.top (m.word address)

/-- A memory given by the words at some addresses, the first entry for an
address winning, and by one word for all other addresses. -/
def ofEntries (fill : UInt32) (entries : List (UInt32 × UInt32)) : Memory where
  word address := (entries.lookup address).getD fill

end Memory

/-- A stopped processor. -/
structure Cpu where
  /-- The address of the instruction to be executed next. -/
  pc : UInt32
  /-- The low words of the general purpose registers. -/
  register : Register → UInt32
  /-- What the processor's loads see. -/
  memory : Memory

end Unwind
