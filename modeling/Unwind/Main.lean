/-
Unwind.Main — the backtrace printer as a program.
-/
import Unwind.Dump.Readers

namespace Unwind.Dump

/-- The contents of a file, if it can be read. -/
def contents? (path : String) : IO (Option ByteArray) := do
  try
    return some (← IO.FS.readBinFile path)
  catch _ =>
    return none

/-- The files a request names, read beforehand. -/
def filesOf : Option Request → IO Files
  | some (.backtrace a) => do
    let regs ← contents? a.regs
    let rdram ← contents? a.rdram
    return fun path => if path = a.regs then regs else if path = a.rdram then rdram else none
  | _ => return fun _ => none

end Unwind.Dump

open Unwind.Dump

/-- Prints the call stack of a stopped machine from a register dump and a
memory dump. -/
def main (args : List String) : IO UInt32 := do
  let request := Request.ofCommandLine? args
  let around : Surroundings := ⟨← IO.getEnv "RUST_LOG", ← filesOf request⟩
  let answer := answer .standard around request
  IO.print answer.stdout
  if answer.exitCode = 2 then IO.eprint usage
  if let some failure := answer.failure then IO.eprintln ("Error: " ++ failure.message)
  return answer.exitCode
