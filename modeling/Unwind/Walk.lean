/-
Unwind.Walk — walking a call stack without unwind tables.

A frame is a pc and the stack pointer that belongs to it. The prologue of the
function around the pc tells where the return address was spilled and how
large the frame is, and so the caller's frame (`Visit.ofFrame`). A walk starts
from what the processor knows by itself (`Visit.innermost`) and follows
callers until a function has no whole prologue, a return address is none, or
the frame cap is reached.

`Walk` keeps every visit. The backtrace, the diagnostics, the memory accesses
and the log are all read off the visits. A loop that adds to each of these lists
as it goes comes to the same (`Walk.walk_eq` in `Proofs.Loop`).
-/
import Unwind.Backtrace
import Unwind.Limits
import Unwind.Prologue

namespace Unwind

/-! ## Frames -/

/-- Where a function activation stands. -/
structure Frame where
  pc : UInt32
  /-- The stack pointer while the activation's frame is allocated. -/
  sp : UInt32
  deriving DecidableEq

/-- A call returns past its delay slot, this far behind the call itself. -/
def callLength : UInt32 := 8

/-- The spill slot at an offset from a stack pointer. -/
def spillSlot (sp : UInt32) (offset : UInt16) : UInt32 := sp + offset.toUInt32

/-- The caller's stack pointer, given the amount by which a function moved
its own; a real prologue moves it down. -/
def callerSp (sp : UInt32) (frameSize : Int16) : UInt32 := sp - frameSize.toInt32.toUInt32

/-! ## Visits -/

/-- Where a visited frame leads. -/
inductive Outcome
  | caller (frame : Frame)
  | noPrologue
  | returnBelowZero (ra : UInt32)
  deriving DecidableEq

/-- A visited entry of the call stack. -/
structure Visit where
  pc : UInt32
  /-- The scan for the prologue around the pc. -/
  scan : Scan
  /-- The spill slot that was read, if any. -/
  slot : Option UInt32
  outcome : Outcome

namespace Visit

/-- The visit of the function in which the processor stopped. It may not have
run its prologue yet. If it has spilled the return address, the register may
already be clobbered by a call, so the stack is trusted instead. -/
def innermost (cpu : Cpu) (budget : UInt32) : Visit :=
  let scan := Scan.run cpu.memory budget cpu.pc
  let sp := cpu.register .sp
  let slot := scan.raOffset.map (spillSlot sp)
  { pc := cpu.pc
    scan := scan
    slot := slot
    outcome := .caller
      { pc := (slot.map cpu.memory.word).getD (cpu.register .ra)
        sp := (scan.frameSize.map (callerSp sp)).getD sp } }

/-- The visit of a frame. Its return address less the length of a call is the
caller's pc. -/
def ofFrame (memory : Memory) (budget : UInt32) (frame : Frame) : Visit :=
  let scan := Scan.run memory budget frame.pc
  match scan.frame? with
  | none => ⟨frame.pc, scan, none, .noPrologue⟩
  | some (offset, size) =>
    let slot := spillSlot frame.sp offset
    let ra := memory.word slot
    if ra < callLength then ⟨frame.pc, scan, some slot, .returnBelowZero ra⟩
    else ⟨frame.pc, scan, some slot, .caller ⟨ra - callLength, callerSp frame.sp size⟩⟩

/-- The frame that the visited one was called from. -/
def next? (v : Visit) : Option Frame :=
  match v.outcome with
  | .caller frame => some frame
  | _ => none

/-- The memory accesses of a visit, in order. -/
def reads (v : Visit) : List UInt32 := v.scan.reads.toList ++ v.slot.toList

/-- A prologue of which only one half was found. -/
def incomplete (v : Visit) : List Diagnostic :=
  if v.scan.isIncomplete then
    [.incompletePrologue v.pc v.scan.raOffset v.scan.frameSize]
  else []

/-- What went wrong in a visit. -/
def diagnostics (budget : UInt32) (v : Visit) : List Diagnostic :=
  (if v.scan.stop = .budgetExhausted then [.scanLimitExceeded v.pc budget] else [])
    ++ v.incomplete

/-- What was reported while the prologue was looked for. -/
def scanReports (v : Visit) : List Report :=
  v.scan.reports.toList ++ v.incomplete.map .diagnosed

/-- What was reported on going on to the caller. -/
def stepReports (v : Visit) : List Report :=
  match v.next? with
  | some frame => [.unwound frame.pc frame.sp]
  | none => []

end Visit

/-! ## Walks -/

/-- Why a walk ended. -/
inductive Ending
  /-- There is a further frame, and no room for it. -/
  | capReached
  | noPrologue (pc : UInt32)
  | returnBelowZero (ra : UInt32)
  deriving DecidableEq

/-- A walk that has ended. -/
structure Walk where
  limits : Limits
  innermost : Visit
  /-- The visits of the callers, innermost first. -/
  callers : List Visit

namespace Walk

/-- The visits of a frame and of its callers, as many as there is room for. -/
def visitsFrom (memory : Memory) (budget : UInt32) : Nat → Frame → List Visit
  | 0, _ => []
  | room + 1, frame =>
    let visit := Visit.ofFrame memory budget frame
    visit :: match visit.next? with
      | some caller => visitsFrom memory budget room caller
      | none => []

/-- The walk of a processor's call stack. The current pc is listed under any
frame cap. -/
def run (limits : Limits) (cpu : Cpu) : Walk :=
  let innermost := Visit.innermost cpu limits.scanBudget
  { limits := limits
    innermost := innermost
    callers := match innermost.next? with
      | some frame => visitsFrom cpu.memory limits.scanBudget (limits.frameCap - 1) frame
      | none => [] }

/-- All visits, innermost first. -/
def visits (w : Walk) : List Visit := w.innermost :: w.callers

/-- The last visit tells why a walk ended: if it leads to a caller, only the
frame cap can have kept the walk from going there. -/
def ending (w : Walk) : Ending :=
  let last := w.callers.getLastD w.innermost
  match last.outcome with
  | .caller _ => .capReached
  | .noPrologue => .noPrologue last.pc
  | .returnBelowZero ra => .returnBelowZero ra

/-- The memory accesses of a walk, in order. -/
def reads (w : Walk) : List UInt32 := w.visits.flatMap Visit.reads

/-- What a walk notes of having reached the frame cap. -/
def cut (w : Walk) : List Diagnostic :=
  if w.ending = .capReached then [.frameCapExceeded w.limits.frameCap] else []

/-- The list of pcs, and what went wrong. -/
def backtrace (w : Walk) : Backtrace where
  pc := w.innermost.pc
  callers := w.callers.map Visit.pc
  diagnostics := w.visits.flatMap (Visit.diagnostics w.limits.scanBudget) ++ w.cut

/-- The last report of a walk. -/
def endReport (w : Walk) : Report :=
  match w.ending with
  | .capReached => .diagnosed (.frameCapExceeded w.limits.frameCap)
  | .noPrologue pc => .noPrologue pc w.visits.length
  | .returnBelowZero ra => .returnBelowZero ra w.visits.length

/-- Everything a walk reports, in order. -/
def reports (w : Walk) : List Report :=
  w.innermost.scanReports
    ++ w.callers.flatMap (fun v => v.scanReports ++ v.stepReports)
    ++ [w.endReport]

end Walk

/-- The backtrace of a processor's call stack. -/
def Cpu.backtrace (cpu : Cpu) (limits : Limits) : Backtrace := (Walk.run limits cpu).backtrace

end Unwind
