/-
Unwind.Isa.Register — the thirty-two general purpose registers and their
conventional names.
-/

namespace Unwind

/-- A general purpose register. -/
abbrev Register := Fin 32

namespace Register

/-- The conventional names, in the order of the register numbers. -/
def names : List String :=
  ["ZERO", "AT", "V0", "V1", "A0", "A1", "A2", "A3",
   "T0", "T1", "T2", "T3", "T4", "T5", "T6", "T7",
   "S0", "S1", "S2", "S3", "S4", "S5", "S6", "S7",
   "T8", "T9", "K0", "K1", "GP", "SP", "FP", "RA"]

/-- The register of a conventional name. -/
def ofName? (name : String) : Option Register :=
  (names.idxOf? name).bind fun i => if h : i < 32 then some ⟨i, h⟩ else none

/-- The register a byte selects: only its low five bits count. -/
def ofByte (n : UInt8) : Register :=
  ⟨(n &&& 0x1f).toNat, by
    have h : (n &&& 0x1f).toNat ≤ 31 := by
      rw [UInt8.toNat_and]; exact Nat.and_le_right
    omega⟩

/-- The register that reads as zero. -/
def zero : Register := 0

/-- The stack pointer. -/
def sp : Register := 29

/-- The return address. -/
def ra : Register := 31

/-- The number as it stands in a five-bit field of an instruction. -/
def field (r : Register) : UInt32 := UInt32.ofNat r.val

end Register

end Unwind
