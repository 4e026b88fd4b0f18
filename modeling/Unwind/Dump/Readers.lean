/-
Unwind.Dump.Readers — how register dumps are written, and what the printer
that can be run reads with.

The text of a register dump is a JSON object with the members `pc` and `gp`,
or the list of both values. Other members are passed over; a repeated one of
the two is refused.
-/
import Unwind.Dump.Answer
import Unwind.Dump.LogFilter
import Unwind.Json.Value

namespace Unwind

namespace RegisterDump

/-- A plain number that fits into a 32-bit word. -/
def word? : Json.Value → Option UInt32
  | .natural n => if n < UInt32.size then some (UInt32.ofNat n) else none
  | _ => none

/-- A plain number that fits into a 64-bit word. -/
def wideWord? : Json.Value → Option UInt64
  | .natural n => if n < UInt64.size then some (UInt64.ofNat n) else none
  | _ => none

/-- A list of 64-bit words. -/
def wideWords? : Json.Value → Option (List UInt64)
  | .list items => items.mapM wideWord?
  | _ => none

/-- The only value that stands under a key. -/
def member? (members : List (List UInt16 × Json.Value)) (key : String) : Option Json.Value :=
  match members.filter (fun entry => entry.1 == key.toList.flatMap Json.units) with
  | [entry] => some entry.2
  | _ => none

/-- The register dump that a value is. -/
def ofValue? : Json.Value → Option RegisterDump
  | .object members => do
    guard (members.all fun entry => Json.isPaired entry.1)
    return ⟨← word? (← member? members "pc"), ← wideWords? (← member? members "gp")⟩
  | .list [pc, registers] => return ⟨← word? pc, ← wideWords? registers⟩
  | _ => none

/-- The register dump that a text is. -/
def parse? (text : String) : Option RegisterDump := do
  ofValue? (← Json.Value.parse? text)

end RegisterDump

/-- The readers of the printer that can be run. -/
def Dump.Readers.standard : Dump.Readers where
  filterError? := Dump.LogFilter.error?
  registerDump? := RegisterDump.parse?

end Unwind
