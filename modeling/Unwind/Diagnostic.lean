/-
Unwind.Diagnostic — what can go wrong in a walk. None of it is fatal: the
walk returns what it has collected, and its diagnostics beside it.
-/
import Unwind.Text.Hex

namespace Unwind

/-- Something that went wrong in a walk. -/
inductive Diagnostic
  /-- A scan used up its budget. -/
  | scanLimitExceeded (start budget : UInt32)
  /-- A scan found one half of a prologue and not the other. -/
  | incompletePrologue (pc : UInt32) (raOffset : Option UInt16) (frameSize : Option Int16)
  /-- The backtrace was cut at the frame cap. -/
  | frameCapExceeded (cap : Nat)
  deriving DecidableEq

namespace Diagnostic

/-- A number that may be missing, spelled out. -/
def optional : Option Int → String
  | some n => s!"Some({n})"
  | none => "None"

/-- The wording of a diagnostic. -/
def message : Diagnostic → String
  | scanLimitExceeded start budget =>
    s!"failed to find function prologue starting at {Hex.address .upper start} (scanned {budget.toNat} bytes)"
  | incompletePrologue pc raOffset frameSize =>
    let offset := optional (raOffset.map fun n => n.toNat)
    let size := optional (frameSize.map Int16.toInt)
    s!"incomplete prologue for {Hex.address .upper pc}: ra save offset {offset}, frame size {size}"
  | frameCapExceeded cap => s!"hit soft stack limit of {cap} frames"

/-- Whether a backtrace was cut at the frame cap. -/
def isCut : Diagnostic → Bool
  | frameCapExceeded _ => true
  | _ => false

end Diagnostic

end Unwind
