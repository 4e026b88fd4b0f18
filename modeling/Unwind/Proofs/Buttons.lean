/-
Unwind.Proofs.Buttons — what a watch on buttons waits for.

Such a watch holds the bits of several buttons in one word, and compares it with the
bits that the controller reports, which may include bits of no button. As no two
buttons share a bit (`Button.bit_inj`), the word tells which buttons went into it,
though not in which order or how often. The word of no buttons at all is zero, which
the watch has to tell apart: every state of the controller has the bits of it.

  §1 Bits         — the bit of a button.
  §2 Combinations — the bits of a list of buttons (`testBit_combination`), and which
                    lists have the same ones (`combination_eq_iff`).
  §3 Watches      — `combination_fires_when_held`: all of the buttons are held.
-/
import Mathlib.Algebra.Group.Nat.Defs
import Mathlib.Data.List.Basic
import Unwind.Hook.Trigger

namespace Unwind

namespace Button

/-! ## §1 Bits -/

/-- The number of a button's bit. -/
def bit (button : Button) : Nat := all.idxOf button

theorem mem_all (button : Button) : button ∈ all := by
  cases button <;> simp [all]

/-- No two buttons share a bit. -/
@[simp] theorem bit_inj {button other : Button} : button.bit = other.bit ↔ button = other :=
  List.idxOf_inj (mem_all button)

/-- The mask of a button has its bit and no other. -/
theorem toNat_mask (button : Button) : button.mask.toNat = 2 ^ button.bit := by
  cases button <;> rfl

/-- Whether the bits of held buttons include that of a button. -/
def IsHeld (held : UInt32) (button : Button) : Prop := held.toNat.testBit button.bit = true

/-! ## §2 Combinations -/

/-- Buttons that are added to a word add their bits to it. -/
theorem testBit_foldl_mask (buttons : List Button) (bits : UInt32) (k : Nat) :
    (buttons.foldl (fun bits button => bits ||| button.mask) bits).toNat.testBit k = true
      ↔ bits.toNat.testBit k = true ∨ ∃ button ∈ buttons, button.bit = k := by
  induction buttons generalizing bits with
  | nil => simp
  | cons button buttons ih =>
    rw [List.foldl_cons, ih, UInt32.toNat_or, toNat_mask, Nat.testBit_or, Nat.testBit_two_pow]
    simp [or_assoc]

theorem testBit_combination (buttons : List Button) (k : Nat) :
    (combination buttons).toNat.testBit k = true ↔ ∃ button ∈ buttons, button.bit = k := by
  rw [combination, testBit_foldl_mask]
  simp

/-- A combination has the bit of a button just if the button is in it. -/
theorem isHeld_combination (buttons : List Button) (button : Button) :
    IsHeld (combination buttons) button ↔ button ∈ buttons := by
  simp [IsHeld, testBit_combination]

theorem combination_eq_zero_iff (buttons : List Button) :
    combination buttons = 0 ↔ buttons = [] := by
  constructor
  · intro zero
    apply List.eq_nil_iff_forall_not_mem.mpr
    intro button mem
    have held := (isHeld_combination buttons button).mpr mem
    simp [IsHeld, zero] at held
  · rintro rfl
    rfl

/-- A combination does not tell the order of its buttons, or how often one is named. -/
theorem combination_eq_iff (these those : List Button) :
    combination these = combination those ↔ ∀ button, button ∈ these ↔ button ∈ those := by
  constructor
  · intro same button
    rw [← isHeld_combination, same, isHeld_combination]
  · intro same
    apply UInt32.toNat_inj.mp
    apply Nat.eq_of_testBit_eq
    intro k
    rw [Bool.eq_iff_iff, testBit_combination, testBit_combination]
    simp only [same]

end Button

/-! ## §3 Watches -/

namespace Trigger

theorem fires_buttons_iff (wanted held : UInt32) :
    (buttons wanted).fires (.buttons held) = true ↔ wanted ≠ 0 ∧ held &&& wanted = wanted := by
  simp [fires]

/-- One word includes another if it has all of its bits. -/
theorem and_eq_right_iff (held wanted : UInt32) :
    held &&& wanted = wanted
      ↔ ∀ k, wanted.toNat.testBit k = true → held.toNat.testBit k = true := by
  rw [← UInt32.toNat_inj, UInt32.toNat_and]
  constructor
  · intro same k set
    rw [← same, Nat.testBit_and, Bool.and_eq_true] at set
    exact set.1
  · intro included
    apply Nat.eq_of_testBit_eq
    intro k
    rw [Nat.testBit_and, Bool.and_eq_right_iff_imp]
    exact included k

/-- **A watch on a combination of buttons fires when all of them are held**, whatever
else is; a watch on no buttons never does. Two combinations are the same if they are
made of the same buttons. -/
theorem combination_fires_when_held :
    (∀ (list : List Button) (held : UInt32),
        (buttons (Button.combination list)).fires (.buttons held) = true
          ↔ list ≠ [] ∧ ∀ button ∈ list, Button.IsHeld held button)
      ∧ ∀ these those : List Button,
        Button.combination these = Button.combination those
          ↔ ∀ button, button ∈ these ↔ button ∈ those := by
  refine ⟨fun list held => ?_, Button.combination_eq_iff⟩
  rw [fires_buttons_iff, and_eq_right_iff, ne_eq, Button.combination_eq_zero_iff]
  simp only [Button.testBit_combination]
  refine and_congr_right fun _ => ⟨fun included button mem => ?_, fun all k => ?_⟩
  · exact included button.bit ⟨button, mem, rfl⟩
  · rintro ⟨button, mem, rfl⟩
    exact all button mem

end Trigger

end Unwind
