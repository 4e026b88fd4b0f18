/-
Unwind.Dump.Arguments — the command line of the backtrace printer.

The options are `--regs PATH`, `--rdram PATH`, `--scan-budget BYTES` and
`--frame-cap COUNT`, each at most once and the first two always; a value may
also follow its option behind an equals sign. `--help`, `-h`, `--version` and
`-V` take effect where they stand, if nothing before them is wrong.
-/
import Unwind.Limits

namespace Unwind.Dump

/-- What the printer is to work on. -/
structure Arguments where
  /-- The path of the register dump. -/
  regs : String
  /-- The path of the memory dump. -/
  rdram : String
  scanBudget : UInt32
  frameCap : Nat
  deriving DecidableEq, Repr

/-- What a command line asks for. -/
inductive Request
  | help
  | version
  | backtrace (arguments : Arguments)
  deriving DecidableEq, Repr

/-! ## Values -/

/-- The number that decimal digits spell; there must be one at least. -/
def decimal? (digits : List Char) : Option Nat :=
  if digits.isEmpty || !digits.all Char.isDigit then none
  else some (digits.foldl (fun n c => 10 * n + (c.toNat - '0'.toNat)) 0)

/-- A number with or without a sign. -/
def signed? (text : String) : Option Int :=
  match text.toList with
  | '+' :: digits => (decimal? digits).map Int.ofNat
  | '-' :: digits => (decimal? digits).map fun n => -Int.ofNat n
  | digits => (decimal? digits).map Int.ofNat

/-- A number of bytes that fits into a 32-bit word. -/
def bytes? (text : String) : Option UInt32 :=
  (signed? text).bind fun n =>
    if 0 ≤ n ∧ n.toNat < UInt32.size then some (UInt32.ofNat n.toNat) else none

/-- A count that fits into a 64-bit word; a minus sign is refused. -/
def count? (text : String) : Option Nat :=
  let digits := match text.toList with
    | '+' :: digits => digits
    | digits => digits
  (decimal? digits).bind fun n => if n < UInt64.size then some n else none

/-- A path has at least one character. -/
def path? (text : String) : Option String := if text.isEmpty then none else some text

/-! ## Options -/

/-- The options met so far. -/
structure Given where
  regs : Option String
  rdram : Option String
  scanBudget : Option UInt32
  frameCap : Option Nat

namespace Given

/-- No options have been met. -/
def empty : Given := ⟨none, none, none, none⟩

/-- The arguments, if the required ones are there. -/
def arguments? (g : Given) : Option Arguments := do
  return {
    regs := ← g.regs
    rdram := ← g.rdram
    scanBudget := g.scanBudget.getD Limits.standard.scanBudget
    frameCap := g.frameCap.getD Limits.standard.frameCap }

/-- Takes an option with its value; refuses an unknown option, a repeated one
and a value that is not of its sort. -/
def set? (g : Given) (name value : String) : Option Given :=
  match name with
  | "regs" =>
    if g.regs.isSome then none else (path? value).map fun v => { g with regs := some v }
  | "rdram" =>
    if g.rdram.isSome then none else (path? value).map fun v => { g with rdram := some v }
  | "scan-budget" =>
    if g.scanBudget.isSome then none
    else (bytes? value).map fun v => { g with scanBudget := some v }
  | "frame-cap" =>
    if g.frameCap.isSome then none
    else (count? value).map fun v => { g with frameCap := some v }
  | _ => none

end Given

/-! ## Command lines -/

/-- The sorts of arguments. -/
inductive Argument
  /-- The mark behind which no options follow. -/
  | terminator
  | long (name : String) (value : Option String)
  /-- An option of one letter, which others may follow. -/
  | short (letter : Char)
  | plain

/-- Tells the sort of an argument. A single hyphen is a plain one. -/
def Argument.ofString (text : String) : Argument :=
  match text.toList with
  | ['-', '-'] => .terminator
  | '-' :: '-' :: rest =>
    let name := rest.takeWhile (· != '=')
    let value := match rest.dropWhile (· != '=') with
      | _ :: value => some (String.ofList value)
      | [] => none
    .long (String.ofList name) value
  | '-' :: letter :: _ => .short letter
  | _ => .plain

/-- Whether an argument can be the value of an option before it. -/
def Argument.isPlain : Argument → Bool
  | plain => true
  | _ => false

/-- What the rest of a command line asks for, given the options before. -/
def Request.parse? (given : Given) : List String → Option Request
  | [] => given.arguments?.map .backtrace
  | text :: rest =>
    match Argument.ofString text with
    | .terminator => if rest.isEmpty then given.arguments?.map .backtrace else none
    | .short 'V' | .long "version" none => some .version
    | .short 'h' | .long "help" none => some .help
    | .long name (some value) => (given.set? name value).bind fun given => parse? given rest
    | .long name none =>
      match rest with
      | value :: rest =>
        if (Argument.ofString value).isPlain then
          (given.set? name value).bind fun given => parse? given rest
        else none
      | [] => none
    | .short _ | .plain => none

/-- What a command line asks for. -/
def Request.ofCommandLine? (args : List String) : Option Request := Request.parse? .empty args

end Unwind.Dump
