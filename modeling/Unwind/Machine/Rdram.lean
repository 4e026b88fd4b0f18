/-
Unwind.Machine.Rdram — an image of the console's main memory.

The image holds whole words. It is seen through two directly mapped segments,
which alias each other; every other address is backed by nothing. Reads are
total (nothing reads as zero) and an unaligned access takes in the two words
around it, each of which may be backed or not on its own.
-/
import Unwind.Machine.Cpu

namespace Unwind

/-- An image of main memory, as its words from the lowest address up. -/
structure Rdram where
  words : Array UInt32
  deriving DecidableEq

namespace Rdram

/-! ## Images -/

/-- An image of zeros, of `len` bytes rounded down to whole words. -/
def zeroed (len : Nat) : Rdram := ⟨Array.replicate (len / 4) 0⟩

/-- The image of a raw dump; an incomplete last word is dropped. -/
def ofBytes (bytes : Array UInt8) : Rdram where
  words := Array.ofFn fun i : Fin (bytes.size / 4) =>
    Word.ofBytes (bytes.getD (4 * i) 0) (bytes.getD (4 * i + 1) 0)
      (bytes.getD (4 * i + 2) 0) (bytes.getD (4 * i + 3) 0)

/-- The length in bytes. -/
def len (m : Rdram) : Nat := 4 * m.words.size

/-- Whether the image has no bytes at all. -/
def isEmpty (m : Rdram) : Bool := m.len == 0

/-- The bytes of the image from the lowest address up. -/
def bytes (m : Rdram) : List UInt8 := m.words.toList.flatMap Word.bytes

/-! ## Addresses -/

/-- The word of the image that holds the byte at a directly mapped address.
The top two bits select the segments, the third one is the alias. -/
def index? (address : UInt32) : Option Nat :=
  if address &&& 0xc0000000 = 0x80000000 then
    some ((address &&& 0x1ffffffc).toNat / 4)
  else
    none

/-- The aligned word around an address, zero if the image does not back it. -/
def alignedWord (m : Rdram) (address : UInt32) : UInt32 :=
  match index? address with
  | some i => m.words.getD i 0
  | none => 0

/-- How many bits an address lies beyond the aligned word around it. -/
def misalignment (address : UInt32) : UInt32 := (address &&& 3) * 8

/-- The aligned address at or below an address. -/
def alignDown (address : UInt32) : UInt32 := address &&& ~~~3

/-! ## Reading -/

/-- The word at any address, put together from two words if unaligned. -/
def word (m : Rdram) (address : UInt32) : UInt32 :=
  let shift := misalignment address
  let left := alignDown address
  if shift = 0 then m.alignedWord address
  else m.alignedWord left <<< shift ||| m.alignedWord (left + 4) >>> (32 - shift)

/-- The image as the memory that loads see. -/
def memory (m : Rdram) : Memory := ⟨m.word⟩

/-! ## Writing

A write answers whether everything it had to write is backed. What is backed
is written in either case. -/

/-- Replaces the masked bits of the aligned word around an address. -/
def writeAligned (m : Rdram) (address value mask : UInt32) : Bool × Rdram :=
  match index? address with
  | some i =>
    if i < m.words.size then
      (true, ⟨m.words.modify i fun old => Word.blend old value mask⟩)
    else
      (false, m)
  | none => (false, m)

/-- One of the two words of an unaligned write: it is left alone, and need not
be backed, if no bit of it is masked. -/
def writePart (m : Rdram) (address value mask : UInt32) : Bool × Rdram :=
  if mask = 0 then (true, m) else m.writeAligned address value mask

/-- Replaces the masked bits of the word at any address. -/
def writeMasked (m : Rdram) (address value mask : UInt32) : Bool × Rdram :=
  let shift := misalignment address
  let left := alignDown address
  if shift = 0 then m.writeAligned address value mask
  else
    let (wroteLeft, m) := m.writePart left (value >>> shift) (mask >>> shift)
    let (wroteRight, m) :=
      m.writePart (left + 4) (value <<< (32 - shift)) (mask <<< (32 - shift))
    (wroteLeft && wroteRight, m)

/-- Writes the word at an address. -/
def writeWord (m : Rdram) (address value : UInt32) : Bool × Rdram :=
  m.writeMasked address value 0xffffffff

/-- Writes the half word at an address. -/
def writeHalf (m : Rdram) (address : UInt32) (value : UInt16) : Bool × Rdram :=
  m.writeMasked address (value.toUInt32 <<< 16) 0xffff0000

/-- Writes the byte at an address. -/
def writeByte (m : Rdram) (address : UInt32) (value : UInt8) : Bool × Rdram :=
  m.writeMasked address (value.toUInt32 <<< 24) 0xff000000

/-- Writes the words from number `i` on of a run of words that starts at
`base`, up to the first one that is not backed. -/
def writeRun (m : Rdram) (base : UInt32) : Nat → List UInt32 → Bool × Rdram
  | _, [] => (true, m)
  | i, value :: values =>
    match m.writeWord (base + 4 * UInt32.ofNat i) value with
    | (true, m) => m.writeRun base (i + 1) values
    | (false, m) => (false, m)

/-- Writes consecutive words from an address on. -/
def writeWords (m : Rdram) (address : UInt32) (values : List UInt32) : Bool × Rdram :=
  m.writeRun address 0 values

end Rdram

end Unwind
