/-
Unwind.Limits — how much work one backtrace may do.

`Limits.checked` is the only way from outside to make limits that are
promised to be sensible; the walk itself copes with any limits.
-/

namespace Unwind

/-- How much work one backtrace may do. -/
structure Limits where
  /-- How many bytes a scan may go back from its start before it gives up. -/
  scanBudget : UInt32
  /-- How many entries a backtrace may have, the current pc included. -/
  frameCap : Nat
  deriving DecidableEq, Repr

/-- Why a pair of limits is refused. -/
inductive LimitsError
  | emptyScanBudget
  | unalignedScanBudget (budget : UInt32)
  | emptyFrameCap
  deriving DecidableEq, Repr

namespace LimitsError

/-- The wording of the refusal. -/
def message : LimitsError → String
  | emptyScanBudget => "scan budget must not be zero"
  | unalignedScanBudget budget => s!"scan budget {budget.toNat} is not a multiple of 4 bytes"
  | emptyFrameCap => "frame cap must not be zero"

end LimitsError

namespace Limits

/-- 16 KiB of scanning for each frame and 512 frames. -/
def standard : Limits := ⟨16384, 512⟩

/-- Limits under which each frame can be scanned at least one whole word and
at least the current pc can be listed. -/
def checked (scanBudget : UInt32) (frameCap : Nat) : Except LimitsError Limits :=
  if scanBudget = 0 then .error .emptyScanBudget
  else if scanBudget % 4 ≠ 0 then .error (.unalignedScanBudget scanBudget)
  else if frameCap = 0 then .error .emptyFrameCap
  else .ok ⟨scanBudget, frameCap⟩

/-- Limits are accepted if none of the reasons to refuse them holds, and as they are. -/
theorem checked_eq_ok_iff {scanBudget : UInt32} {frameCap : Nat} {limits : Limits} :
    checked scanBudget frameCap = .ok limits
      ↔ scanBudget ≠ 0 ∧ scanBudget % 4 = 0 ∧ frameCap ≠ 0 ∧ limits = ⟨scanBudget, frameCap⟩ := by
  unfold checked
  split
  case isTrue empty => simp [empty]
  case isFalse full =>
    split
    case isTrue unaligned => simp [unaligned]
    case isFalse aligned =>
      split
      case isTrue closed => simp [closed]
      case isFalse room => simp [full, Decidable.not_not.mp aligned, room, @eq_comm _ limits]

/-- How many instructions the budget covers. -/
def scanInstructions (l : Limits) : UInt32 := l.scanBudget / 4

end Limits

end Unwind
