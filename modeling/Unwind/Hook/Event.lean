/-
Unwind.Hook.Event — what the emulator reports to hooks, and the buttons of a
controller.
-/

namespace Unwind

/-- A DMA transfer between the cartridge and main memory. -/
structure Transfer where
  base : UInt32
  len : UInt32
  dst : UInt32
  deriving DecidableEq

/-- Something the emulator reports to hooks. -/
inductive Event
  /-- The instruction at this address is about to be executed. -/
  | pc (address : UInt32)
  /-- The state of the controller, one bit for each button. -/
  | buttons (held : UInt32)
  | ramRead (address : UInt32)
  | ramWrite (address : UInt32) (value mask : UInt64)
  /-- A transfer from the cartridge. -/
  | cartRead (transfer : Transfer)
  /-- A transfer to the cartridge. -/
  | cartWrite (transfer : Transfer)
  deriving DecidableEq

/-- The buttons of a controller, in the order of their bits. -/
inductive Button
  | rightDpad
  | leftDpad
  | downDpad
  | upDpad
  | start
  | z
  | b
  | a
  | rightC
  | leftC
  | downC
  | upC
  | r
  | l
  deriving DecidableEq, Repr

namespace Button

/-- All buttons, in the order of their bits. -/
def all : List Button :=
  [rightDpad, leftDpad, downDpad, upDpad, start, z, b, a, rightC, leftC, downC, upC, r, l]

/-- The bit of a button. -/
def mask (button : Button) : UInt32 := 1 <<< UInt32.ofNat (all.idxOf button)

/-- The bits of several buttons. -/
def combination (buttons : List Button) : UInt32 :=
  buttons.foldl (fun bits button => bits ||| button.mask) 0

end Button

end Unwind
