import Unwind.Text.Hex
import Unwind.Isa.Register
import Unwind.Isa.Instruction
import Unwind.Machine.Word
import Unwind.Machine.Cpu
import Unwind.Machine.Rdram
import Unwind.Machine.Snapshot
import Unwind.Limits
import Unwind.Diagnostic
import Unwind.Report
import Unwind.Prologue
import Unwind.Backtrace
import Unwind.Walk
import Unwind.Hook.Event
import Unwind.Hook.Trigger
import Unwind.Hook.Program
import Unwind.Hook.Session
import Unwind.Hook.Hearing
import Unwind.Script.Access
import Unwind.Script.Step
import Unwind.Script.Notes
import Unwind.Script.Play
import Unwind.Dump.RegisterDump
import Unwind.Dump.Arguments
import Unwind.Dump.Answer
import Unwind.Dump.LogFilter
import Unwind.Json.Token
import Unwind.Json.Value
import Unwind.Dump.Readers
import Unwind.Main
import Unwind.Proofs.Chain
import Unwind.Proofs.Cut
import Unwind.Proofs.Function
import Unwind.Proofs.CallStack
import Unwind.Proofs.Bytes
import Unwind.Proofs.FlatMemory
import Unwind.Proofs.Rdram
import Unwind.Proofs.Writing
import Unwind.Proofs.Attempts
import Unwind.Proofs.Session
import Unwind.Proofs.Dispatch
import Unwind.Proofs.Bookkeeping
import Unwind.Proofs.Cancellation
import Unwind.Proofs.OneShot
import Unwind.Proofs.Enrolment
import Unwind.Proofs.Diagnosis
import Unwind.Proofs.Log
import Unwind.Proofs.Loop
import Unwind.Proofs.Nesting
import Unwind.Proofs.Reads
import Unwind.Proofs.Recursion
import Unwind.Proofs.Hearing
import Unwind.Proofs.Isolation
import Unwind.Proofs.Cookies
import Unwind.Proofs.Entry
import Unwind.Proofs.Stages
import Unwind.Proofs.Search
import Unwind.Proofs.Work
import Unwind.Proofs.Cycle
import Unwind.Proofs.Ranges
import Unwind.Proofs.Buttons
import Unwind.Proofs.Printing
