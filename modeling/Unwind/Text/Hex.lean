/-
Unwind.Text.Hex — hexadecimal numerals.

A number is written with a fixed count of digits (`padded`) or with as few
as possible (`shortest`), in either letter case. `address` is the form in
which messages show a 32-bit address: the mark `0x` and eight digits.
-/

namespace Unwind.Hex

/-- Which letters stand for the digit values from ten up. -/
inductive Letters
  | lower
  | upper
  deriving DecidableEq, Repr

/-- The digit of value ten; the five later ones follow it in order. -/
def Letters.ten : Letters → Char
  | .lower => 'a'
  | .upper => 'A'

/-- The character of a digit value below sixteen. -/
def digit (letters : Letters) (value : Nat) : Char :=
  if value < 10 then Char.ofNat ('0'.toNat + value)
  else Char.ofNat (letters.ten.toNat + (value - 10))

/-- The last `width` digits of a number, most significant first. -/
def padded (letters : Letters) : Nat → Nat → List Char
  | 0, _ => []
  | width + 1, n => padded letters width (n / 16) ++ [digit letters (n % 16)]

/-- The digits of a number without leading zeros; zero itself has one digit. -/
def shortest (letters : Letters) (n : Nat) : List Char :=
  if n < 16 then [digit letters n]
  else shortest letters (n / 16) ++ [digit letters (n % 16)]
termination_by n

/-- Every numeral of fixed width has exactly that many digits. -/
@[simp] theorem length_padded (letters : Letters) (width n : Nat) :
    (padded letters width n).length = width := by
  induction width generalizing n with
  | zero => rfl
  | succ width ih => simp [padded, ih]

/-- An address: `0x` and eight digits. -/
def address (letters : Letters) (a : UInt32) : String :=
  "0x" ++ String.ofList (padded letters 8 a.toNat)

/-- A quantity in lower case: `0x` and no leading zeros. -/
def quantity (n : Nat) : String :=
  "0x" ++ String.ofList (shortest .lower n)

end Unwind.Hex
