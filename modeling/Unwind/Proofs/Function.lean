/-
Unwind.Proofs.Function — scanning from inside a compiled function.

A compiled function moves the stack pointer and then spills the return
address; its `Layout` says where and by how much. A scan that starts anywhere
in the body and has the budget to get down to the entry finds just these two
amounts, whatever lies below the function.

  §1 Markers  — the word of a marker is recognised as that marker
                (`ofWord?_word`), and no other word is (`ofWord?_eq_some_iff`).
  §2 Findings — what reading one word adds to what was found.
  §3 Scans    — `Layout.Within` is what a scan knows at each word of a function;
                it is kept from word to word and ends in the whole prologue
                (`Layout.Around.run`).
-/
import Unwind.Prologue
import Mathlib.Tactic.IntervalCases

namespace Unwind

/-! ## §1 Markers -/

namespace Marker

/-- The immediate field does not reach into the upper half. -/
theorem and_upperMask (n : UInt16) : n.toUInt32 &&& Instruction.upperMask = 0 := by
  apply UInt32.eq_of_toBitVec_eq
  ext i hi
  interval_cases i <;> simp [Instruction.upperMask]

theorem or_and_upperMask {upper : UInt32} (h : upper &&& Instruction.upperMask = upper)
    (n : UInt16) : (upper ||| n.toUInt32) &&& Instruction.upperMask = upper := by
  have distrib : (upper ||| n.toUInt32) &&& Instruction.upperMask
      = (upper &&& Instruction.upperMask) ||| (n.toUInt32 &&& Instruction.upperMask) := by
    apply UInt32.toNat_inj.mp
    simp only [UInt32.toNat_and, UInt32.toNat_or, Nat.and_or_distrib_right]
  rw [distrib, h, and_upperMask, UInt32.or_zero]

theorem toUInt16_or {upper : UInt32} (h : upper.toUInt16 = 0) (n : UInt16) :
    (upper ||| n.toUInt32).toUInt16 = n := by
  rw [UInt32.toUInt16_or, h, UInt16.zero_or, UInt16.toUInt16_toUInt32]

/-- A marker is recognised in its word. -/
theorem ofWord?_word (marker : Marker) : ofWord? marker.word = some marker := by
  cases marker with
  | saveRa offset =>
    have upper : Instruction.saveRa &&& Instruction.upperMask = Instruction.saveRa := by decide
    have lower : Instruction.saveRa.toUInt16 = 0 := by decide
    simp only [ofWord?, word, or_and_upperMask upper, toUInt16_or lower, if_true]
  | adjustSp amount =>
    have upper : Instruction.adjustSp &&& Instruction.upperMask = Instruction.adjustSp := by decide
    have lower : Instruction.adjustSp.toUInt16 = 0 := by decide
    have differs : Instruction.adjustSp ≠ Instruction.saveRa := by decide
    simp only [ofWord?, word, or_and_upperMask upper, toUInt16_or lower, if_neg differs, if_true]
    rfl
  | returnRa => decide

/-- A word is its upper half beside its immediate field. -/
theorem upper_or_immediate (w : UInt32) :
    (w &&& Instruction.upperMask) ||| w.toUInt16.toUInt32 = w := by
  apply UInt32.toNat_inj.mp
  have immediate : w.toNat % 2 ^ 16 = w.toNat &&& 0xffff :=
    (Nat.and_two_pow_sub_one_eq_mod w.toNat 16).symm
  calc ((w &&& Instruction.upperMask) ||| w.toUInt16.toUInt32).toNat
      = (w.toNat &&& 0xffff0000) ||| (w.toNat &&& 0xffff) := by
        rw [UInt32.toNat_or, UInt32.toNat_and, UInt16.toNat_toUInt32, UInt32.toNat_toUInt16,
          immediate]
        rfl
    _ = w.toNat &&& (2 ^ 32 - 1) := (Nat.and_or_distrib_left _ _ _).symm
    _ = w.toNat := by rw [Nat.and_two_pow_sub_one_eq_mod, Nat.mod_eq_of_lt w.toNat_lt]

/-- Only the word of a marker is recognised as that marker. -/
theorem ofWord?_eq_some_iff {w : UInt32} {marker : Marker} :
    ofWord? w = some marker ↔ w = marker.word := by
  constructor
  · intro recognised
    unfold ofWord? at recognised
    split at recognised
    case isTrue saves =>
      rw [← Option.some.inj recognised, word, ← saves, upper_or_immediate]
    case isFalse =>
      split at recognised
      case isTrue adjusts =>
        have immediate : w.toUInt16.toInt16.toUInt16 = w.toUInt16 := rfl
        rw [← Option.some.inj recognised, word, ← adjusts, immediate, upper_or_immediate]
      case isFalse =>
        split at recognised
        case isTrue returns => rw [← Option.some.inj recognised, returns, word]
        case isFalse => cases recognised
  · rintro rfl
    exact ofWord?_word marker

end Marker

/-! ## §2 Findings -/

namespace Findings

variable {f : Findings} (address : UInt32)

/-- A word that is no marker adds nothing. -/
theorem note_none (f : Findings) :
    (f.note address none).raOffset = f.raOffset
      ∧ (f.note address none).frameSize = f.frameSize :=
  ⟨rfl, rfl⟩

/-- The first spill adds its offset. -/
theorem note_saveRa (h : f.raOffset = none) (offset : UInt16) :
    (f.note address (some (.saveRa offset))).raOffset = some offset
      ∧ (f.note address (some (.saveRa offset))).frameSize = f.frameSize := by
  simp [note, mark, report, h]

/-- The first stack pointer adjustment adds its amount. -/
theorem note_adjustSp (h : f.frameSize = none) (amount : Int16) :
    (f.note address (some (.adjustSp amount))).raOffset = f.raOffset
      ∧ (f.note address (some (.adjustSp amount))).frameSize = some amount := by
  simp [note, mark, report, h]

end Findings

/-! ## §3 Scans -/

/-- Where a compiled function sets up its frame, and how. -/
structure Layout where
  /-- The address of the stack pointer adjustment. -/
  entry : UInt32
  /-- The address of the spill of the return address. -/
  spill : UInt32
  /-- The amount of the adjustment. -/
  frameSize : Int16
  /-- The offset of the spill slot from the stack pointer. -/
  raOffset : UInt16

namespace Layout

/-- A pc lies in the body of a function of this layout: no other word from the
entry up to the pc is a marker, and a scan from the pc has the budget to read
all of them. -/
structure Around (l : Layout) (memory : Memory) (budget pc : UInt32) : Prop where
  entry_lt_spill : l.entry < l.spill
  spill_le_pc : l.spill ≤ pc
  entry_aligned : l.entry.toNat % 4 = pc.toNat % 4
  spill_aligned : l.spill.toNat % 4 = pc.toNat % 4
  adjusts : memory.word l.entry = Marker.word (.adjustSp l.frameSize)
  saves : memory.word l.spill = Marker.word (.saveRa l.raOffset)
  plain : ∀ address, l.entry ≤ address → address ≤ pc → address.toNat % 4 = pc.toNat % 4 →
    address ≠ l.entry → address ≠ l.spill → Marker.ofWord? (memory.word address) = none
  budgeted : (pc.toNat - l.entry.toNat) / 4 + 1 ≤ budget.toNat / 4

/-- A scan that began at `start` has come down to `pc`, which it is about to
read: it has met the spill if that lies above. -/
structure Within (l : Layout) (start : UInt32) (found : Findings) (pc : UInt32) : Prop where
  entry_le : l.entry ≤ pc
  le_start : pc ≤ start
  aligned : pc.toNat % 4 = start.toNat % 4
  frameSize : found.frameSize = none
  raOffset : found.raOffset = if l.spill ≤ pc then none else some l.raOffset

variable {l : Layout} {memory : Memory} {budget start pc : UInt32} {found : Findings}

theorem Around.not_spill_lt_entry (around : l.Around memory budget start) :
    ¬ l.spill < l.entry :=
  UInt32.not_lt.mpr (UInt32.le_of_lt around.entry_lt_spill)

/-- Reading one word of the function meets the prologue where it stands, and
no return. -/
theorem Around.note (around : l.Around memory budget start) (within : l.Within start found pc) :
    let marker? := Marker.ofWord? (memory.word pc)
    marker? ≠ some .returnRa
      ∧ (found.note pc marker?).frameSize = (if pc = l.entry then some l.frameSize else none)
      ∧ (found.note pc marker?).raOffset = (if l.spill < pc then none else some l.raOffset) := by
  dsimp only
  have offset := within.raOffset
  by_cases entry : pc = l.entry
  · have above : ¬ l.spill ≤ pc := entry ▸ UInt32.not_le.mpr around.entry_lt_spill
    obtain ⟨kept, met⟩ := Findings.note_adjustSp pc within.frameSize l.frameSize
    rw [if_neg above] at offset
    rw [if_pos entry, if_neg fun lt => above (UInt32.le_of_lt lt), entry, around.adjusts,
      Marker.ofWord?_word, ← entry, kept, met, offset]
    exact ⟨by simp, rfl, rfl⟩
  · by_cases spill : pc = l.spill
    · rw [if_pos (spill ▸ UInt32.le_rfl)] at offset
      obtain ⟨met, kept⟩ := Findings.note_saveRa pc offset l.raOffset
      rw [if_neg entry, if_neg (spill ▸ UInt32.lt_irrefl _), spill, around.saves,
        Marker.ofWord?_word, ← spill, kept, met, within.frameSize]
      exact ⟨by simp, rfl, rfl⟩
    · obtain ⟨sameOffset, sameSize⟩ := Findings.note_none pc found
      rw [if_neg entry, around.plain pc within.entry_le within.le_start within.aligned entry spill,
        sameOffset, sameSize, within.frameSize, offset]
      have strict : l.spill ≤ pc ↔ l.spill < pc :=
        ⟨fun le => UInt32.lt_of_le_of_ne le (Ne.symm spill), UInt32.le_of_lt⟩
      simp only [strict]
      exact ⟨by simp, trivial, trivial⟩

/-- Both halves have been met exactly when the entry has been read. -/
theorem Around.isComplete_note (around : l.Around memory budget start)
    (within : l.Within start found pc) :
    (found.note pc (Marker.ofWord? (memory.word pc))).isComplete = true ↔ pc = l.entry := by
  obtain ⟨-, size, offset⟩ := around.note within
  rw [Findings.isComplete, size, offset]
  by_cases entry : pc = l.entry
  · rw [if_pos entry, if_neg (entry ▸ around.not_spill_lt_entry)]
    exact iff_of_true rfl entry
  · simp [entry]

/-- Words of a function lie four bytes apart. -/
theorem Around.entry_add_four_le (around : l.Around memory budget start)
    (within : l.Within start found pc) (entry : pc ≠ l.entry) :
    l.entry.toNat + 4 ≤ pc.toNat := by
  have le := UInt32.le_iff_toNat_le.mp within.entry_le
  have ne : pc.toNat ≠ l.entry.toNat := fun same => entry (UInt32.toNat_inj.mp same)
  have := within.aligned
  have := around.entry_aligned
  omega

/-- Above the entry the scan goes on: there is a word below, and the budget
covers it. -/
theorem Around.goes_on (around : l.Around memory budget start)
    (within : l.Within start found pc) (entry : pc ≠ l.entry) :
    4 ≤ pc ∧ start - pc + 4 < budget := by
  have le := UInt32.le_iff_toNat_le.mp within.le_start
  have room := around.entry_add_four_le within entry
  have budgeted := around.budgeted
  have := within.aligned
  have := around.entry_aligned
  have diff := UInt32.toNat_sub_of_le _ _ within.le_start
  have bound := budget.toNat_lt
  constructor
  · apply UInt32.le_iff_toNat_le.mpr
    rw [show (4 : UInt32).toNat = 4 from rfl]
    omega
  · apply UInt32.lt_iff_toNat_lt.mpr
    rw [UInt32.toNat_add, diff, show (4 : UInt32).toNat = 4 from rfl]
    omega

/-- What the scan knows is kept from one word to the one below. -/
theorem Around.within_below (around : l.Around memory budget start)
    (within : l.Within start found pc) (entry : pc ≠ l.entry) :
    l.Within start (found.note pc (Marker.ofWord? (memory.word pc))) (pc - 4) := by
  obtain ⟨-, size, offset⟩ := around.note within
  have room := around.entry_add_four_le within entry
  have below := UInt32.toNat_sub_of_le _ _ (around.goes_on within entry).1
  rw [show (4 : UInt32).toNat = 4 from rfl] at below
  have le_start := UInt32.le_iff_toNat_le.mp within.le_start
  have aligned := within.aligned
  have spill_aligned := around.spill_aligned
  refine ⟨?_, ?_, ?_, ?_, ?_⟩
  · exact UInt32.le_iff_toNat_le.mpr (by omega)
  · exact UInt32.le_iff_toNat_le.mpr (by omega)
  · omega
  · rw [size, if_neg entry]
  · have step : l.spill < pc ↔ l.spill ≤ pc - 4 := by
      rw [UInt32.lt_iff_toNat_lt, UInt32.le_iff_toNat_le]
      omega
    simp only [offset, step]

theorem Around.search (around : l.Around memory budget start) (within : l.Within start found pc) :
    (Scan.search memory start budget found pc).raOffset = some l.raOffset
      ∧ (Scan.search memory start budget found pc).frameSize = some l.frameSize
      ∧ (Scan.search memory start budget found pc).stop = .complete := by
  fun_induction Scan.search memory start budget found pc with
  | case1 found pc marker? found' returned => exact absurd returned (around.note within).1
  | case2 found pc marker? found' going complete =>
    have entry := (around.isComplete_note within).mp complete
    obtain ⟨-, size, offset⟩ := around.note within
    rw [if_pos entry] at size
    rw [if_neg (entry ▸ around.not_spill_lt_entry)] at offset
    exact ⟨offset, size, rfl⟩
  | case3 found pc marker? found' going incomplete low =>
    have entry := mt (around.isComplete_note within).mpr incomplete
    exact absurd low (UInt32.not_lt.mpr (around.goes_on within entry).1)
  | case4 found pc marker? found' going incomplete high beyond =>
    have entry := mt (around.isComplete_note within).mpr incomplete
    exact absurd beyond (UInt32.not_le.mpr (around.goes_on within entry).2)
  | case5 found pc marker? found' going incomplete high covered ih =>
    have entry := mt (around.isComplete_note within).mpr incomplete
    exact ih (around.within_below within entry)

/-- A scan from inside a function finds the function's prologue, all of it. -/
theorem Around.run (around : l.Around memory budget pc) :
    (Scan.run memory budget pc).raOffset = some l.raOffset
      ∧ (Scan.run memory budget pc).frameSize = some l.frameSize
      ∧ (Scan.run memory budget pc).stop = .complete := by
  apply around.search
  refine ⟨?_, UInt32.le_rfl, rfl, rfl, ?_⟩
  · exact UInt32.le_of_lt (UInt32.lt_of_lt_of_le around.entry_lt_spill around.spill_le_pc)
  · rw [if_pos around.spill_le_pc]
    rfl

end Layout

end Unwind
