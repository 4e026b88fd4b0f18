/-
Unwind.Report — the log of what scans, walks and hook registries do.

A report is kept as what happened; `Report.text` is the line a log shows.
-/
import Unwind.Diagnostic

namespace Unwind

/-- How much a report matters, the most severe first. -/
inductive Severity
  | warn
  | debug
  | trace
  deriving DecidableEq, Repr

namespace Severity

/-- The position among the severities, the most severe being zero. -/
def rank : Severity → Nat
  | warn => 0
  | debug => 1
  | trace => 2

/-- The word a log line begins with. -/
def label : Severity → String
  | warn => "WARN"
  | debug => "DEBUG"
  | trace => "TRACE"

end Severity

/-- One thing that happened. -/
inductive Report
  /-- A scan met the first spill of the return address. -/
  | savedRa (offset : UInt16) (address : UInt32)
  /-- A scan met the first stack pointer adjustment. -/
  | adjustedSp (amount : Int16) (address : UInt32)
  /-- A scan met a return. -/
  | metReturn (address : UInt32)
  /-- A scan that began at `start` used up its budget. -/
  | scanFailed (start : UInt32)
  /-- A walk noted a diagnostic of its own. -/
  | diagnosed (diagnostic : Diagnostic)
  /-- A walk of `frames` entries ends: the last has no whole prologue. -/
  | noPrologue (pc : UInt32) (frames : Nat)
  /-- A walk of `frames` entries ends: no call returns to this address. -/
  | returnBelowZero (ra : UInt32) (frames : Nat)
  /-- A walk goes on with a caller. -/
  | unwound (pc sp : UInt32)
  /-- A hook was registered. -/
  | hookRegistered (cookie : UInt32)
  /-- A hook was cancelled. -/
  | hookRemoved (cookie : UInt32)
  deriving DecidableEq

namespace Report

def severity : Report → Severity
  | savedRa .. | adjustedSp .. | metReturn .. => .trace
  | scanFailed .. | diagnosed .. => .warn
  | noPrologue .. | returnBelowZero .. | unwound .. => .debug
  | hookRegistered .. | hookRemoved .. => .debug

/-- What happened, in words. -/
def message : Report → String
  | savedRa offset address =>
    s!"sw ra, {Hex.quantity offset.toNat}(sp) at {Hex.address .lower address}"
  | adjustedSp amount address =>
    s!"addiu sp, sp, {amount.toInt} at {Hex.address .lower address}"
  | metReturn address => s!"jr ra at {Hex.address .lower address}"
  | scanFailed start =>
    s!"failed to find function prologue starting at {Hex.address .upper start}"
  | diagnosed diagnostic => diagnostic.message
  | noPrologue pc _ => s!"no prologue for {Hex.address .lower pc}, stopping"
  | returnBelowZero ra _ => s!"return address {Hex.quantity ra.toNat} is below zero, stopping"
  | unwound pc sp =>
    s!"unwound to pc={Hex.address .lower pc} sp={Hex.address .lower sp}"
  | hookRegistered _ => "registered hook"
  | hookRemoved _ => "removed hook"

/-- The named quantities that go with the message. -/
def fields : Report → List (String × Nat)
  | noPrologue _ frames | returnBelowZero _ frames => [("frames", frames)]
  | hookRegistered cookie | hookRemoved cookie => [("cookie", cookie.toNat)]
  | _ => []

/-- The log line of a report. -/
def text (r : Report) : String :=
  r.fields.foldl (fun line field => s!"{line} {field.1}={field.2}")
    s!"{r.severity.label} {r.message}"

/-- Whether a log kept at a level shows a report. -/
def shownAt (level : Severity) (r : Report) : Bool := r.severity.rank ≤ level.rank

/-- The lines of a log kept at a level. -/
def log (level : Severity) (reports : List Report) : List String :=
  (reports.filter (shownAt level)).map text

end Report

end Unwind
