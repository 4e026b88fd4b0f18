/-
Unwind.Backtrace — a best-effort list of the pcs of a call stack, innermost
first, and its printed form.
-/
import Unwind.Diagnostic

namespace Unwind

/-- The pcs of a call stack, and what went wrong in collecting them. -/
structure Backtrace where
  /-- The exact pc of the stopped machine. -/
  pc : UInt32
  /-- The calls that led there, innermost first. -/
  callers : List UInt32
  diagnostics : List Diagnostic

namespace Backtrace

/-- All entries; there is always at least one. -/
def pcs (b : Backtrace) : List UInt32 := b.pc :: b.callers

/-- Whether the call stack may go on beyond the last entry, which was the
last one that the frame cap admits. -/
def isTruncated (b : Backtrace) : Bool := b.diagnostics.any Diagnostic.isCut

/-! ## Printed form -/

/-- One entry on a line of its own. -/
def line (lead : String) (pc : UInt32) : String :=
  lead ++ Hex.address .upper pc ++ "\n"

/-- One line for each entry; the lead tells the pc from its callers. -/
def text (b : Backtrace) : String :=
  String.join (line "PC: " b.pc :: b.callers.map (line "<- "))

end Backtrace

end Unwind
