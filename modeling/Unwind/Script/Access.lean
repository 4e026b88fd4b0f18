/-
Unwind.Script.Access — scripted looks at a snapshot and changes to it.

A script is a list of steps, each of which has a reply. The steps of this
module concern the snapshot alone; `Access.perform` is what they do to it.
-/
import Unwind.Hook.Event
import Unwind.Machine.Snapshot

namespace Unwind.Script

/-- The reply to a step. -/
inductive Reply
  /-- There is nothing to say. -/
  | nothing
  | bool (b : Bool)
  | number (n : Nat)
  | text (s : String)
  | words (ws : List UInt32)
  /-- How large something is, and whether it is empty. -/
  | extent (size : Nat) (empty : Bool)
  | snapshot (s : Snapshot)
  | event (e : Event)
  /-- The step was refused, since there have been too many of its kind. -/
  | limit

/-- A look at a snapshot, or a change to it. -/
inductive Access
  | readWord (address : UInt32)
  | readHalf (address : UInt32)
  | readByte (address : UInt32)
  | writeWord (address value : UInt32)
  | writeHalf (address : UInt32) (value : UInt16)
  | writeByte (address : UInt32) (value : UInt8)
  | writeMasked (address value mask : UInt32)
  | writeWords (address : UInt32) (values : List UInt32)
  | extent
  /-- Compares the memory with an image. -/
  | sameAs (image : Rdram)
  | register (n : UInt8)
  | setRegister (n : UInt8) (value : UInt32)
  | snapshot

namespace Access

/-- The word a script's log shows for a step. -/
def keyword : Access → String
  | readWord .. => "r32"
  | readHalf .. => "r16"
  | readByte .. => "r8"
  | writeWord .. => "w32"
  | writeHalf .. => "w16"
  | writeByte .. => "w8"
  | writeMasked .. => "wm"
  | writeWords .. => "ww"
  | extent => "len"
  | sameAs .. => "eq"
  | register .. => "reg"
  | setRegister .. => "set_reg"
  | snapshot => "state"

/-- Whether a step writes to memory. -/
def isWrite : Access → Bool
  | writeWord .. | writeHalf .. | writeByte .. | writeMasked .. | writeWords .. => true
  | _ => false

/-- A write to a snapshot's memory. -/
def write (change : Rdram → Bool × Rdram) : Snapshot → Reply × Snapshot
  | { pc, registers, hi, lo, rdram } =>
    let (written, rdram) := change rdram
    (.bool written, { pc, registers, hi, lo, rdram })

/-- Does a step to a snapshot. -/
def perform (a : Access) (s : Snapshot) : Reply × Snapshot :=
  match a with
  | readWord address => (.number (s.rdram.memory.word address).toNat, s)
  | readHalf address => (.number (s.rdram.memory.half address).toNat, s)
  | readByte address => (.number (s.rdram.memory.byte address).toNat, s)
  | writeWord address value => write (·.writeWord address value) s
  | writeHalf address value => write (·.writeHalf address value) s
  | writeByte address value => write (·.writeByte address value) s
  | writeMasked address value mask => write (·.writeMasked address value mask) s
  | writeWords address values => write (·.writeWords address values) s
  | extent => (.extent s.rdram.len s.rdram.isEmpty, s)
  | sameAs image => (.bool (s.rdram == image), s)
  | register n => (.number (s.register (.ofByte n)).toNat, s)
  | setRegister n value =>
    let s := s.setRegister (.ofByte n) value
    (.words s.registers.toList, s)
  | snapshot => (.snapshot s, s)

/-- Does steps one after another, and after each of them keeps its reply and,
of a write, what the memory holds if that is at most `shown` bytes. -/
def performAll (shown : Nat) : List Access → Snapshot → List (Reply × Option (List UInt8)) × Snapshot
  | [], s => ([], s)
  | a :: rest, s =>
    let (reply, s) := a.perform s
    let memory := if a.isWrite && s.rdram.len ≤ shown then some s.rdram.bytes else none
    let (replies, s) := performAll shown rest s
    ((reply, memory) :: replies, s)

end Access

end Unwind.Script
