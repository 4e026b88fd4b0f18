/-
Unwind.Dump.RegisterDump — the register file of a stopped machine, as it was
written down.
-/
import Unwind.Machine.Snapshot

namespace Unwind

/-- The pc and the general purpose registers, as many as were written. -/
structure RegisterDump where
  pc : UInt32
  registers : List UInt64

namespace RegisterDump

/-- The machine with these registers and a memory, if the dump holds one value
for each register. -/
def snapshot? (d : RegisterDump) (rdram : Rdram) : Option Snapshot :=
  if h : d.registers.length = 32 then
    some (.ofWideRegisters d.pc ⟨d.registers.toArray, by simpa using h⟩ rdram)
  else none

end RegisterDump

end Unwind
