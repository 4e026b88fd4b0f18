/-
Unwind.Proofs.Ranges — which addresses a watched range catches.

A range and a transfer are both intervals without their upper end, and either may
be empty. A transfer is to set off a watch if one of its bytes lies in the range
(`AddrRange.Touches`). The test compares the ends of the two intervals, which is the
same as long as neither is empty. An empty one that lies inside of the other passes
it too (`AddrRange.Hollow`).

  §1 Watches   — a watch on a range sees the events of its kind, by their addresses.
  §2 Transfers — `overlaps_iff_touches`: the test and the bytes, and what that means
                 for the watches on transfers.
  §3 Bytes     — `single_watches_byte`: the range of one address watches that address,
                 unless it is the last of all (`last_byte_unwatched`).
-/
import Mathlib.Logic.Basic
import Unwind.Hook.Trigger

namespace Unwind

namespace Trigger

/-! ## §1 Watches -/

theorem fires_ramRead_iff (r : AddrRange) (event : Event) :
    (ramRead r).fires event = true ↔ ∃ a, event = .ramRead a ∧ r.contains a = true := by
  cases event <;> simp [fires]

theorem fires_ramWrite_iff (r : AddrRange) (event : Event) :
    (ramWrite r).fires event = true
      ↔ ∃ value mask a, event = .ramWrite a value mask ∧ r.contains a = true := by
  cases event with
  | ramWrite a value mask =>
    constructor
    · intro inside
      exact ⟨value, mask, a, rfl, inside⟩
    · rintro ⟨_, _, _, same, inside⟩
      cases same
      exact inside
  | _ => simp [fires]

theorem fires_cartRead_iff (r : AddrRange) (event : Event) :
    (cartRead r).fires event = true
      ↔ ∃ t, event = .cartRead t ∧ r.overlaps t.base t.len = true := by
  cases event <;> simp [fires]

theorem fires_cartWrite_iff (r : AddrRange) (event : Event) :
    (cartWrite r).fires event = true
      ↔ ∃ t, event = .cartWrite t ∧ r.overlaps t.base t.len = true := by
  cases event <;> simp [fires]

end Trigger

namespace AddrRange

/-! ## §2 Transfers -/

theorem contains_iff (r : AddrRange) (x : UInt32) :
    r.contains x = true ↔ r.min.toNat ≤ x.toNat ∧ x.toNat < r.max.toNat := by
  simp [contains, UInt32.le_iff_toNat_le, UInt32.lt_iff_toNat_lt]

theorem overlaps_iff (r : AddrRange) (base len : UInt32) :
    r.overlaps base len = true
      ↔ base.toNat < r.max.toNat ∧ r.min.toNat < base.toNat + len.toNat := by
  simp [overlaps, UInt32.lt_iff_toNat_lt]

/-- A transfer touches a range if one of its bytes lies in it. Transfers do not wrap. -/
def Touches (r : AddrRange) (base len : UInt32) : Prop :=
  ∃ x : UInt32, r.contains x = true ∧ base ≤ x ∧ x.toNat < base.toNat + len.toNat

/-- A transfer of no bytes from inside a range, or one across a range of no addresses. -/
def Hollow (r : AddrRange) (base len : UInt32) : Prop :=
  (len = 0 ∧ r.min < base ∧ base < r.max)
    ∨ (r.max ≤ r.min ∧ base < r.max ∧ r.min.toNat < base.toNat + len.toNat)

/-- Two intervals that are not empty have a common element if each begins before the
other ends: the larger of their lower ends. -/
theorem touches_iff (r : AddrRange) (base len : UInt32) :
    r.Touches base len ↔ r.overlaps base len = true ∧ 0 < len.toNat ∧ r.min < r.max := by
  rw [overlaps_iff, UInt32.lt_iff_toNat_lt]
  constructor
  · rintro ⟨x, inside, low, high⟩
    rw [contains_iff] at inside
    rw [UInt32.le_iff_toNat_le] at low
    omega
  · rintro ⟨⟨begins, ends⟩, some, wide⟩
    rcases Nat.le_total r.min.toNat base.toNat with below | above
    · refine ⟨base, (contains_iff r base).mpr ⟨below, begins⟩, UInt32.le_refl base, by omega⟩
    · refine ⟨r.min, (contains_iff r r.min).mpr ⟨Nat.le_refl _, wide⟩, ?_, ends⟩
      exact UInt32.le_iff_toNat_le.mpr above

/-- So the test errs where one of the two is empty. -/
theorem hollow_iff (r : AddrRange) (base len : UInt32) :
    r.Hollow base len
      ↔ r.overlaps base len = true ∧ ¬ (0 < len.toNat ∧ r.min < r.max) := by
  simp only [Hollow, overlaps_iff, UInt32.lt_iff_toNat_lt, UInt32.le_iff_toNat_le,
    ← UInt32.toNat_inj, UInt32.reduceToNat]
  omega

theorem overlaps_iff_touches_or (r : AddrRange) (base len : UInt32) :
    r.overlaps base len = true ↔ r.Touches base len ∨ r.Hollow base len := by
  rw [touches_iff, hollow_iff, ← and_or_left]
  exact (and_iff_left (Classical.em _)).symm

theorem Touches.not_hollow {r : AddrRange} {base len : UInt32} (h : r.Touches base len) :
    ¬ r.Hollow base len :=
  fun hollow => ((hollow_iff r base len).mp hollow).2 ((touches_iff r base len).mp h).2

/-- **A transfer passes the test of a range if one of its bytes lies in it, or if one of
the two is empty and inside of the other.** In all other cases the test and the bytes
agree. A watch on transfers follows the test, and knows its own kind. -/
theorem overlaps_iff_touches (r : AddrRange) :
    (∀ base len, r.overlaps base len = true ↔ r.Touches base len ∨ r.Hollow base len)
      ∧ (∀ base len, (r.overlaps base len = true ↔ r.Touches base len)
        ↔ ¬ r.Hollow base len)
      ∧ (∀ event, (Trigger.cartRead r).fires event = true
        ↔ ∃ t, event = .cartRead t ∧ (r.Touches t.base t.len ∨ r.Hollow t.base t.len))
      ∧ ∀ event, (Trigger.cartWrite r).fires event = true
        ↔ ∃ t, event = .cartWrite t ∧ (r.Touches t.base t.len ∨ r.Hollow t.base t.len) := by
  refine ⟨overlaps_iff_touches_or r, fun base len => ?_, fun event => ?_, fun event => ?_⟩
  · rw [overlaps_iff_touches_or, or_iff_left_iff_imp]
    constructor
    · intro touching hollow
      exact (touching hollow).not_hollow hollow
    · intro apart hollow
      exact absurd hollow apart
  · simp only [Trigger.fires_cartRead_iff, overlaps_iff_touches_or]
  · simp only [Trigger.fires_cartWrite_iff, overlaps_iff_touches_or]

/-- The test lets through a transfer of no bytes, and any transfer across a range of no
addresses; no byte of either lies in the range. -/
theorem overlaps_without_a_byte :
    ¬ (∀ (r : AddrRange) (base len : UInt32), r.overlaps base len = true ↔ r.Touches base len)
      ∧ (Trigger.cartRead ⟨0x1000, 0x2000⟩).fires (.cartRead ⟨0x1800, 0, 0⟩) = true
      ∧ ¬ (⟨0x1000, 0x2000⟩ : AddrRange).Touches 0x1800 0
      ∧ (Trigger.cartRead ⟨0x1000, 0x1000⟩).fires (.cartRead ⟨0xff0, 0x20, 0⟩) = true
      ∧ ¬ (⟨0x1000, 0x1000⟩ : AddrRange).Touches 0xff0 0x20 := by
  have nothing : ¬ (⟨0x1000, 0x2000⟩ : AddrRange).Touches 0x1800 0 := by
    rw [touches_iff]
    decide
  have nowhere : ¬ (⟨0x1000, 0x1000⟩ : AddrRange).Touches 0xff0 0x20 := by
    rw [touches_iff]
    decide
  exact ⟨fun agree => nothing ((agree _ _ _).mp (by decide)), by decide, nothing, by decide,
    nowhere⟩

/-! ## §3 Bytes -/

theorem toNat_max_single {a : UInt32} (inner : a ≠ 0xffffffff) :
    (single a).max.toNat = a.toNat + 1 := by
  have below : a.toNat + 1 < UInt32.size := by
    have lt := a.toNat_lt_size
    have ne : a.toNat ≠ UInt32.size - 1 := fun h => inner (UInt32.toNat_inj.mp h)
    omega
  have next : (single a).max = a + 1 := if_neg inner
  rw [next, UInt32.toNat_add]
  exact Nat.mod_eq_of_lt below

theorem contains_single {a : UInt32} (inner : a ≠ 0xffffffff) (b : UInt32) :
    (single a).contains b = true ↔ b = a := by
  rw [contains_iff, toNat_max_single inner, ← UInt32.toNat_inj, show (single a).min = a from rfl]
  omega

theorem overlaps_single {a : UInt32} (inner : a ≠ 0xffffffff) (base len : UInt32) :
    (single a).overlaps base len = true
      ↔ base ≤ a ∧ a.toNat < base.toNat + len.toNat := by
  rw [overlaps_iff, toNat_max_single inner, UInt32.le_iff_toNat_le,
    show (single a).min = a from rfl]
  omega

/-- The range of the last address of all is empty, as its upper end saturates. -/
theorem contains_single_last (b : UInt32) : (single 0xffffffff).contains b = false := by
  rw [← Bool.not_eq_true, contains_iff]
  exact fun h => Nat.not_lt.mpr h.1 h.2

/-- A transfer that begins below the last address and has a byte there has bytes on
either side of where that range is. -/
theorem overlaps_single_last (base len : UInt32) :
    (single 0xffffffff).overlaps base len = true
      ↔ base ≠ 0xffffffff ∧ UInt32.size ≤ base.toNat + len.toNat := by
  have lt := base.toNat_lt
  have ends : (single 0xffffffff).max.toNat = UInt32.size - 1 := rfl
  have begins : (single 0xffffffff).min.toNat = UInt32.size - 1 := rfl
  rw [overlaps_iff, ne_eq, ← UInt32.toNat_inj, ends, begins]
  simp only [UInt32.reduceToNat, UInt32.size]
  omega

/-- The range of one address is that address, and the watches on it catch what has to
do with it: accesses to it, and transfers of which it is a byte. -/
structure WatchesByte (a : UInt32) : Prop where
  contains : ∀ b, (single a).contains b = true ↔ b = a
  ramRead : ∀ event, (Trigger.ramRead (single a)).fires event = true ↔ event = .ramRead a
  ramWrite : ∀ event, (Trigger.ramWrite (single a)).fires event = true
    ↔ ∃ value mask, event = .ramWrite a value mask
  cartRead : ∀ event, (Trigger.cartRead (single a)).fires event = true
    ↔ ∃ t, event = .cartRead t ∧ t.base ≤ a ∧ a.toNat < t.base.toNat + t.len.toNat
  cartWrite : ∀ event, (Trigger.cartWrite (single a)).fires event = true
    ↔ ∃ t, event = .cartWrite t ∧ t.base ≤ a ∧ a.toNat < t.base.toNat + t.len.toNat

theorem watchesByte_of_ne {a : UInt32} (inner : a ≠ 0xffffffff) : WatchesByte a where
  contains := contains_single inner
  ramRead event := by
    simp only [Trigger.fires_ramRead_iff, contains_single inner, exists_eq_right]
  ramWrite event := by
    simp only [Trigger.fires_ramWrite_iff, contains_single inner, exists_eq_right]
  cartRead event := by simp only [Trigger.fires_cartRead_iff, overlaps_single inner]
  cartWrite event := by simp only [Trigger.fires_cartWrite_iff, overlaps_single inner]

theorem WatchesByte.ne {a : UInt32} (h : WatchesByte a) : a ≠ 0xffffffff := by
  rintro rfl
  have held := (h.contains 0xffffffff).mpr rfl
  rw [contains_single_last] at held
  exact absurd held Bool.false_ne_true

/-- **The range of one address watches that address, unless it is the last of all.** Watches
on that one see no access, and of the transfers that reach it only those that begin
below. -/
theorem single_watches_byte (a : UInt32) :
    (WatchesByte a ↔ a ≠ 0xffffffff)
      ∧ (∀ b, (single 0xffffffff).contains b = false)
      ∧ ∀ base len, (single 0xffffffff).overlaps base len = true
        ↔ base ≠ 0xffffffff ∧ UInt32.size ≤ base.toNat + len.toNat :=
  ⟨⟨WatchesByte.ne, watchesByte_of_ne⟩, contains_single_last, overlaps_single_last⟩

/-- Watches on the last address of all miss the accesses to it, and the transfers that
begin there. -/
theorem last_byte_unwatched :
    ¬ (∀ a, WatchesByte a)
      ∧ (Trigger.ramRead (single 0xffffffff)).fires (.ramRead 0xffffffff) = false
      ∧ (Trigger.ramWrite (single 0xffffffff)).fires (.ramWrite 0xffffffff 0 0) = false
      ∧ (Trigger.cartRead (single 0xffffffff)).fires (.cartRead ⟨0xffffffff, 1, 0⟩) = false
      ∧ (Trigger.cartWrite (single 0xffffffff)).fires (.cartWrite ⟨0xffffffff, 1, 0⟩) = false := by
  refine ⟨fun watched => (watched 0xffffffff).ne rfl, ?_, ?_, ?_, ?_⟩ <;> decide

end AddrRange

end Unwind
