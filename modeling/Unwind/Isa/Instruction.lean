/-
Unwind.Isa.Instruction — the instruction words that delimit a function's
prologue.

    immediate form: | opcode:6 | rs:5 | rt:5 | immediate:16 |
    register form:  | 0:6 | rs:5 | rt:5 | rd:5 | shift:5 | function:6 |

A `Marker` is one of the three words a prologue scan looks for;
`Marker.word` assembles it and `Marker.ofWord?` recognises it.
-/
import Unwind.Isa.Register

namespace Unwind

/-! ## Instruction formats -/

namespace Instruction

/-- An immediate-form instruction with an empty immediate field. -/
def immediateForm (opcode : UInt32) (rs rt : Register) : UInt32 :=
  opcode <<< 26 ||| rs.field <<< 21 ||| rt.field <<< 16

/-- A register-form instruction of the major opcode zero. -/
def registerForm (rs rt rd : Register) (shift function : UInt32) : UInt32 :=
  rs.field <<< 21 ||| rt.field <<< 16 ||| rd.field <<< 11 ||| shift <<< 6 ||| function

/-- The opcode and both register fields of an immediate-form instruction. -/
def upperMask : UInt32 := 0xffff0000

/-- `sw ra, 0(sp)`: a spill of the return address, but for its offset. -/
def saveRa : UInt32 := immediateForm 0x2b .sp .ra

/-- `addiu sp, sp, 0`: a stack pointer adjustment, but for its amount. -/
def adjustSp : UInt32 := immediateForm 0x09 .sp .sp

/-- `jr ra`: the return at the end of a function. -/
def returnRa : UInt32 := registerForm .ra .zero .zero 0 0x08

example : saveRa = 0xafbf0000 ∧ adjustSp = 0x27bd0000 ∧ returnRa = 0x03e00008 := by decide

end Instruction

/-! ## Markers -/

/-- An instruction that a prologue scan takes notice of. -/
inductive Marker
  /-- `sw ra, offset(sp)`: the return address is spilled. -/
  | saveRa (offset : UInt16)
  /-- `addiu sp, sp, amount`: a frame is allocated if the amount is negative. -/
  | adjustSp (amount : Int16)
  /-- `jr ra`: a function ends. -/
  | returnRa
  deriving DecidableEq

namespace Marker

/-- The instruction word of a marker. -/
def word : Marker → UInt32
  | saveRa offset => Instruction.saveRa ||| offset.toUInt32
  | adjustSp amount => Instruction.adjustSp ||| amount.toUInt16.toUInt32
  | returnRa => Instruction.returnRa

/-- The marker an instruction word is, if it is one. -/
def ofWord? (w : UInt32) : Option Marker :=
  if w &&& Instruction.upperMask = Instruction.saveRa then
    some (saveRa w.toUInt16)
  else if w &&& Instruction.upperMask = Instruction.adjustSp then
    some (adjustSp w.toUInt16.toInt16)
  else if w = Instruction.returnRa then
    some returnRa
  else
    none

end Marker

end Unwind
