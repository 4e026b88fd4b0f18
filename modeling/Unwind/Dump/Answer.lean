/-
Unwind.Dump.Answer — from two dumps to a printed backtrace.

The work has stages: the log filter, the limits, the register dump's text and
its meaning, the memory dump, the number of registers, the walk. The first
stage that fails decides the answer. How log filters and register dumps are
written is no matter of the printer: it leaves both to `Readers`, and reads the
command line as a `Request`.
-/
import Unwind.Dump.Arguments
import Unwind.Dump.RegisterDump
import Unwind.Walk

namespace Unwind.Dump

/-- What the printer has others read. -/
structure Readers where
  /-- What is wrong with the text of a log filter, if anything is. -/
  filterError? : String → Option String
  /-- The register dump that a text is, if it is one. -/
  registerDump? : String → Option RegisterDump

/-- What can be read, by path. -/
abbrev Files := String → Option ByteArray

/-- What the printer finds when it is started. -/
structure Surroundings where
  /-- The text of the log filter, if there is one. -/
  logFilter : Option String
  files : Files

/-- Why there is no backtrace. -/
inductive Failure
  /-- The log filter was refused, in these words. -/
  | logFilter (message : String)
  | limits (error : LimitsError)
  /-- A file is missing, or is no text where a text is needed. -/
  | reading (path : String)
  | parsing (path : String)
  | registerCount (found : Nat)
  deriving DecidableEq, Repr

/-- The wording of a failure. -/
def Failure.message : Failure → String
  | logFilter message => message
  | limits error => error.message
  | reading path => "reading " ++ path
  | parsing path => "parsing register dump " ++ path
  | registerCount found => s!"expected 32 registers, found {found}"

/-- The failure of the log filter, if it is refused. A missing one is empty. -/
def filterFault? (readers : Readers) (around : Surroundings) : Option Failure :=
  (readers.filterError? (around.logFilter.getD "")).map .logFilter

/-- The value, if there is one, or else a failure. -/
def require {α : Type} (failure : Failure) : Option α → Except Failure α
  | some value => .ok value
  | none => .error failure

/-- The backtrace of the machine that was dumped. -/
def backtrace (readers : Readers) (files : Files) (a : Arguments) : Except Failure Backtrace := do
  let limits ← (Limits.checked a.scanBudget a.frameCap).mapError Failure.limits
  let text ← require (.reading a.regs) ((files a.regs).bind String.fromUTF8?)
  let dump ← require (.parsing a.regs) (readers.registerDump? text)
  let image ← require (.reading a.rdram) (files a.rdram)
  let snapshot ← require (.registerCount dump.registers.length)
    (dump.snapshot? (.ofBytes image.data))
  return snapshot.cpu.backtrace limits

/-- What the printer does in the end. -/
structure Answer where
  exitCode : UInt32
  stdout : String
  /-- The failure that is printed apart from the output. -/
  failure : Option Failure

/-- A backtrace is printed, and nothing if there is none. -/
def Answer.ofResult : Except Failure Backtrace → Answer
  | .ok b => ⟨0, b.text, none⟩
  | .error failure => ⟨1, "", some failure⟩

/-- The name and version that are printed on demand. -/
def versionText : String := "bt-dump 0.1.0\n"

/-- How the printer is used. -/
def usage : String :=
  "Usage: bt-dump [OPTIONS] --regs <REGS> --rdram <RDRAM>\n\n" ++
  "Options:\n" ++
  "      --regs <REGS>                register dump in JSON, with members pc and gp\n" ++
  "      --rdram <RDRAM>              raw big-endian RDRAM dump\n" ++
  "      --scan-budget <SCAN_BUDGET>  bytes to scan backwards for each frame [default: 16384]\n" ++
  "      --frame-cap <FRAME_CAP>      most frames to print [default: 512]\n" ++
  "  -h, --help                       print help\n" ++
  "  -V, --version                    print version\n"

/-- The answer to a request; a command line that asks for nothing is refused. The
log filter is seen to before the command line is. -/
def answer (readers : Readers) (around : Surroundings) (request : Option Request) : Answer :=
  match filterFault? readers around, request with
  | some failure, _ => .ofResult (.error failure)
  | none, none => ⟨2, "", none⟩
  | none, some .help => ⟨0, usage, none⟩
  | none, some .version => ⟨0, versionText, none⟩
  | none, some (.backtrace a) => .ofResult (backtrace readers around.files a)

end Unwind.Dump
