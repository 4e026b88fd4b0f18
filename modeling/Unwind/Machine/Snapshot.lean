/-
Unwind.Machine.Snapshot — registers and main memory of a machine at one point
in time.
-/
import Unwind.Machine.Rdram

namespace Unwind

/-- A machine at one point in time. -/
structure Snapshot where
  pc : UInt32
  registers : Vector UInt32 32
  /-- The upper multiply and divide result. -/
  hi : UInt64
  /-- The lower multiply and divide result. -/
  lo : UInt64
  rdram : Rdram

namespace Snapshot

/-- A snapshot of the given registers; the multiply results are zero. -/
def ofRegisters (pc : UInt32) (registers : Vector UInt32 32) (rdram : Rdram) : Snapshot :=
  ⟨pc, registers, 0, 0, rdram⟩

/-- A snapshot of 64-bit registers, of which only the low words are kept. -/
def ofWideRegisters (pc : UInt32) (registers : Vector UInt64 32) (rdram : Rdram) : Snapshot :=
  ofRegisters pc (registers.map UInt64.toUInt32) rdram

/-- The contents of a register. -/
def register (s : Snapshot) (r : Register) : UInt32 := s.registers.get r

/-- Replaces the contents of a register. -/
def setRegister (s : Snapshot) (r : Register) (value : UInt32) : Snapshot :=
  { s with registers := s.registers.set r value }

/-- The snapshot as the stopped processor that unwinding looks at. -/
def cpu (s : Snapshot) : Cpu := ⟨s.pc, s.register, s.rdram.memory⟩

end Snapshot

end Unwind
