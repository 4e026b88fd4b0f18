/-
Unwind.Prologue — the bounded backward search for a function's prologue.

Compiled functions set up their frame in one shape:

    addiu sp, sp, -FRAME    allocate the frame
    sw    ra, SLOT(sp)      spill the return address, if the function calls

`Scan.run` reads words downwards from an address inside the function until it
has met both, or the `jr ra` that ends the function below, or the bottom of
the address space, or until its budget is used up.
-/
import Unwind.Isa.Instruction
import Unwind.Machine.Cpu
import Unwind.Report

namespace Unwind

/-- What a scan has met so far. -/
structure Findings where
  /-- The offset of the first spill of the return address. -/
  raOffset : Option UInt16
  /-- The amount of the first stack pointer adjustment. -/
  frameSize : Option Int16
  /-- The addresses read, in order. -/
  reads : Array UInt32
  /-- What was reported, in order. -/
  reports : Array Report

namespace Findings

/-- Nothing has been read yet. -/
def empty : Findings := ⟨none, none, #[], #[]⟩

/-- Whether both halves of a prologue have been met. -/
def isComplete (f : Findings) : Bool := f.raOffset.isSome && f.frameSize.isSome

/-- Adds a report. -/
def report (f : Findings) (r : Report) : Findings :=
  { f with reports := f.reports.push r }

/-- Takes notice of a marker. Of each half of a prologue only the first one
counts; the later ones lie before it in the code. -/
def mark (f : Findings) (address : UInt32) : Marker → Findings
  | .saveRa offset =>
    if f.raOffset.isNone then
      { f.report (.savedRa offset address) with raOffset := some offset }
    else f
  | .adjustSp amount =>
    if f.frameSize.isNone then
      { f.report (.adjustedSp amount address) with frameSize := some amount }
    else f
  | .returnRa => f.report (.metReturn address)

/-- Takes notice of the word read at an address. -/
def note (f : Findings) (address : UInt32) (marker? : Option Marker) : Findings :=
  let f := { f with reads := f.reads.push address }
  match marker? with
  | some marker => f.mark address marker
  | none => f

end Findings

/-- Why a scan ended. -/
inductive Stop
  /-- Both halves of the prologue were met. -/
  | complete
  /-- The end of the function below was met. -/
  | returned
  /-- There is no word further down. -/
  | bottom
  /-- The budget is used up. -/
  | budgetExhausted
  deriving DecidableEq, Repr

/-- A scan that has ended. -/
structure Scan extends Findings where
  stop : Stop

namespace Scan

/-- Both halves of the prologue, if both were met. -/
def frame? (s : Scan) : Option (UInt16 × Int16) :=
  match s.raOffset, s.frameSize with
  | some offset, some size => some (offset, size)
  | _, _ => none

/-- Whether exactly one half of the prologue was met. -/
def isIncomplete (s : Scan) : Bool := s.raOffset.isSome != s.frameSize.isSome

/-- Scans on from `pc`, having met `found` between `start` and there. -/
def search (memory : Memory) (start budget : UInt32) (found : Findings) (pc : UInt32) : Scan :=
  let marker? := Marker.ofWord? (memory.word pc)
  let found := found.note pc marker?
  if marker? = some .returnRa then ⟨found, .returned⟩
  else if found.isComplete then ⟨found, .complete⟩
  else if low : pc < 4 then ⟨found, .bottom⟩
  else if start - pc + 4 ≥ budget then ⟨found.report (.scanFailed start), .budgetExhausted⟩
  else search memory start budget found (pc - 4)
termination_by pc.toNat
decreasing_by
  have four : (4 : UInt32) ≤ pc := UInt32.not_lt.mp low
  have := UInt32.toNat_sub_of_le _ _ four
  have := UInt32.le_iff_toNat_le.mp four
  simp_all
  omega

/-- The scan for the prologue of the function around an address. -/
def run (memory : Memory) (budget : UInt32) (start : UInt32) : Scan :=
  search memory start budget .empty start

end Scan

end Unwind
